import Markup.Decimal
import Markup.Doc.Node
import Markup.Text

/-! # Dumps of documents

A document written out for people, one node a line, indented by depth. A line names the kind of
node and its fields that are no lists; the lists follow, each under its name where a node has
more than one. A value that is no node has no dump, and then the document has none. -/

namespace Markup

/-- Two spaces for each level. -/
def dumpIndent (depth : Nat) : String := String.ofList (List.replicate (2 * depth) ' ')

/-- Metadata in braces, keys and values quoted. -/
def Metadata.show (m : Metadata) : String :=
  "\x7b" ++ ", ".intercalate (m.map fun (k, v) => Text.quoted k ++ ": " ++ Text.quoted v) ++ "\x7d"

/-- A field that is no list, as it stands on the line of its node. -/
def Field.show? : Field → Option String
  | .text s => some (Text.quoted s)
  | .int n => some (toString n)
  | .float x => some (Decimal.floatText x)
  | .choice name => some name
  | .metadata m => some m.show
  | .absent | .nodes _ | .rows _ => none

/-- Whether a field is a list. -/
def Field.isList : Field → Bool
  | .nodes _ | .rows _ => true
  | _ => false

/-- The line of a node. -/
def nodeLine (depth : Nat) (kind : String) (fields : List (String × Field)) : String :=
  let shown := fields.filterMap fun (name, f) => f.show?.map fun s => " " ++ name ++ "=" ++ s
  dumpIndent depth ++ kind ++ String.join shown ++ "\n"

mutual

/-- The lines of a node and all below it. -/
def Node.dump (depth : Nat) : Node → Option String
  | .scalar _ => none
  | .mk kind fields =>
    let several := decide (1 < (fields.filter (·.2.isList)).length)
    (dumpFields depth several fields).map (nodeLine depth kind fields ++ ·)

/-- The lines of the lists among the fields of a node, under their names if there are several. -/
def dumpFields (depth : Nat) (several : Bool) : List (String × Field) → Option String
  | [] => some ""
  | (name, f) :: rest => do
    let head := if several && f.isList then dumpIndent (depth + 1) ++ name ++ ":\n" else ""
    let here ← f.dump (if several then depth + 2 else depth + 1)
    let after ← dumpFields depth several rest
    return head ++ here ++ after

/-- The lines of a list. -/
def Field.dump (depth : Nat) : Field → Option String
  | .nodes ns => dumpNodes depth ns
  | .rows rs => dumpRows depth rs
  | .absent | .text _ | .int _ | .float _ | .choice _ | .metadata _ => some ""

/-- The lines of nodes. -/
def dumpNodes (depth : Nat) : List Node → Option String
  | [] => some ""
  | n :: rest => do
    let here ← n.dump depth
    let after ← dumpNodes depth rest
    return here ++ after

/-- The lines of table rows. -/
def dumpRows (depth : Nat) : List (List Node) → Option String
  | [] => some ""
  | r :: rest => do
    let here ← dumpNodes (depth + 1) r
    let after ← dumpRows depth rest
    return dumpIndent depth ++ "row\n" ++ here ++ after

end

/-- The dump of a document. -/
def Document.dump (d : Document) : Option String :=
  let head := d.metadata.map fun (k, v) =>
    dumpIndent 1 ++ "meta " ++ k ++ "=" ++ Text.quoted v ++ "\n"
  (dumpNodes 1 (blockNodes d.content)).map ("Document\n" ++ String.join head ++ ·)

end Markup
