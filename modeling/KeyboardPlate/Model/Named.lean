/-!
# Things by name, in the order of their first arrival

A later thing of the same name takes the earlier one's place.
-/

set_option autoImplicit false

namespace KeyboardPlate

abbrev Named (β : Type) := List (String × β)

namespace Named
variable {β : Type}

def get? (name : String) (things : Named β) : Option β :=
  (things.find? fun entry => entry.1 == name).map (·.2)

def put (name : String) (thing : β) : Named β → Named β
  | [] => [(name, thing)]
  | (n, t) :: rest => if n = name then (n, thing) :: rest else (n, t) :: put name thing rest

/-- All the entries put in, one after the other. -/
def ofEntries (entries : List (String × β)) : Named β :=
  entries.foldl (fun things entry => put entry.1 entry.2 things) []

/-- The names in order. -/
def names (things : Named β) : List String := things.map (·.1)

theorem names_put (name : String) (thing : β) (things : Named β) :
    names (put name thing things) =
      if name ∈ names things then names things else names things ++ [name] := by
  induction things with
  | nil => simp [names, put]
  | cons entry rest ih =>
    obtain ⟨n, t⟩ := entry
    simp only [names, put, List.map_cons] at ih ⊢
    by_cases h : n = name
    · simp [h]
    · have h' : ¬ name = n := fun e => h e.symm
      simp only [if_neg h, List.map_cons, ih, List.mem_cons, h', false_or]
      by_cases hm : name ∈ List.map (fun x => x.fst) rest
      · simp [hm]
      · simp [hm]

end Named

end KeyboardPlate
