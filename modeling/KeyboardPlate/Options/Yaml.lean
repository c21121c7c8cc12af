import KeyboardPlate.Options.Members
import KeyboardPlate.Yaml.Reader

/-!
# Options as YAML

A document of options is a mapping from member names to values. A text without a document, and a document
with nothing in it, leave every option at its default.
-/

set_option autoImplicit false

namespace KeyboardPlate.Options

/-- What a node is to an option that wants a certain kind of value. -/
def Wanted.valueOf (node : Yaml) : Wanted → Json
  | any => node.value
  | truth => node.truth
  | word => node.word

/-- The members of a mapping whose keys are all scalars. -/
def membersOfYaml? (entries : List (Yaml × Yaml)) : Option (List (String × Json)) :=
  entries.mapM fun (key, node) => key.text?.map fun name =>
    match field? name with
    | some f => (name, f.wanted.valueOf node)
    | none => (name, node.value)

def ofYaml : Yaml → Except OptionsError Options
  | .mapping entries =>
    match membersOfYaml? entries with
    | some members => readMembers [] {} members
    | none => .error .malformed
  | .scalar .plain _ [] => .ok {}
  | _ => .error .malformed

/-- Options from a YAML text. -/
def ofYamlText (text : String) : Except OptionsError Options :=
  match Yaml.read? text with
  | none => .error .malformed
  | some none => .ok {}
  | some (some root) => ofYaml root

end KeyboardPlate.Options
