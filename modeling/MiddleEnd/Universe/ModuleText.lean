/-
  Modules as text: one line a reference, a type, a member. Beside each text stand the regions of
  source that it quotes.
-/
import MiddleEnd.Universe.Module

namespace MiddleEnd

/-- What follows the name of a type: what it is nested in, and what its kind adds. -/
def TypeNode.tailText (t : TypeNode) : String :=
  (match t.declaringType with
    | some outer => " in type#" ++ outer.text
    | none => "")
  ++ (match t.kind with
    | .enumType underlying => " : " ++ underlying.text
    | .delegateType parameters returnType =>
      " (" ++ parametersText parameters ++ ") -> " ++ returnType.text
    | _ =>
      if t.interfaces.isEmpty then ""
      else " :" ++ String.join (t.interfaces.map fun i => " " ++ i.text))

/-- What the end of the first line of a type quotes. -/
def TypeNode.tailQuotes (t : TypeNode) : Quotes :=
  match t.kind with
  | .enumType underlying => underlying.quotes
  | .delegateType parameters returnType => parameters.flatMap (·.quotes) ++ returnType.quotes
  | _ => t.interfaces.flatMap (·.quotes)

/-- The value that is shown with a field. -/
def Field.valueText (f : Field) : String :=
  match f.defaultValue, f.initializer with
  | some value, _ => " = " ++ value.text
  | none, some init => " = " ++ init.text
  | none, none => ""

/-- What the value that is shown with a field quotes. -/
def Field.valueQuotes (f : Field) : Quotes :=
  match f.defaultValue, f.initializer with
  | none, some init => init.quotes
  | _, _ => []

/-- The symbol that calls of a method depend on, and its body. -/
def Method.tailText (m : Method) : String :=
  (match m.conditionalSymbol with
    | some symbol => " [if " ++ symbol ++ "]"
    | none => "")
  ++ (match m.body with
    | some body => " " ++ body.block.text
    | none => ";")

/-- What the end of the line of a method quotes. -/
def Method.tailQuotes (m : Method) : Quotes :=
  match m.body with
  | some body => body.block.quotes
  | none => []

/-- The line of a member. -/
def Member.lineText (m : Member) : String :=
  match m.kind with
  | .field f => "field " ++ f.flags.text ++ " " ++ f.type.text ++ " " ++ m.name ++ f.valueText
  | .method f =>
    "method " ++ f.flags.text ++ " " ++ f.returnType.text ++ " " ++ m.name ++ "("
      ++ parametersText f.parameters ++ ")" ++ f.tailText
  | .property p =>
    "property " ++ p.type.text ++ " " ++ m.name ++ " ["
      ++ (if p.getter.isSome then "get" else "") ++ (if p.setter.isSome then " set" else "") ++ "]"
  | .event e => "event " ++ e.flags.text ++ " " ++ e.type.text ++ " " ++ m.name
  | .nestedType id => "nested type#" ++ id.text
  | .snippet =>
    match m.source with
    | some source => "snippet " ++ Text.quoted source.text
    | none => "snippet"

/-- What the line of a member quotes. -/
def Member.lineQuotes (m : Member) : Quotes :=
  match m.kind with
  | .field f => f.type.quotes ++ f.valueQuotes
  | .method f => f.returnType.quotes ++ f.parameters.flatMap (·.quotes) ++ f.tailQuotes
  | .property p => p.type.quotes
  | .event e => e.type.quotes
  | .nestedType _ => []
  | .snippet => m.source.toList

/-- A type with its members as it is shown. -/
def TypeNode.text (t : TypeNode) (id : TypeId) : String :=
  t.kind.text ++ " " ++ t.fullName ++ " (type#" ++ id.text ++ ")" ++ t.tailText ++ "\n"
    ++ String.join (t.members.map fun m => "  " ++ m.lineText ++ "\n")

/-- What the text of a type quotes. -/
def TypeNode.quotes (t : TypeNode) : Quotes :=
  t.tailQuotes ++ t.members.flatMap (·.lineQuotes)

/-- A module as it is shown. -/
def Module.text (m : Module) : String :=
  "; Module: " ++ m.name ++ "\n"
    ++ String.join (m.references.map fun r => "; reference " ++ r.name ++ " [" ++ r.key ++ "]\n")
    ++ (if m.references.isEmpty then "" else "\n")
    ++ String.join (m.types.enumerate.map fun (i, t) => t.text ⟨m.id, i⟩)

/-- What the text of a module quotes. -/
def Module.quotes (m : Module) : Quotes := m.types.toList.flatMap (·.quotes)

end MiddleEnd
