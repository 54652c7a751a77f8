import Markup.Call
import Markup.Text

/-! # Scopes

Which command a name stands for. A scope is a chain of frames, innermost first; a name is looked
up from the inside out, and the first frame that has it wins. `Definition` and `Scope` say
nothing of what commands do: `κ` is whatever tells the kinds of command apart.

`ScopeTable` keeps scopes that are numbered in the order of their making and may still grow;
what is bound in a scope shows in every scope inside it. -/

namespace Markup

/-- A command: its name, its kind, and how its arguments are read. -/
structure Definition (κ : Type) where
  name : String
  kind : κ
  mode : ArgMode := .markup
deriving DecidableEq, Repr, Inhabited

/-- Names and what they stand for, in the order in which they were first bound. -/
abbrev Frame (κ : Type) := List (String × Definition κ)

/-- Binds a name; one that is there keeps its place. -/
def Frame.bind {κ : Type} : Frame κ → String → Definition κ → Frame κ
  | [], name, d => [(name, d)]
  | (n, old) :: rest, name, d =>
    if n = name then (n, d) :: rest else (n, old) :: Frame.bind rest name d

/-- A frame of definitions under their own names. -/
def Frame.ofDefinitions {κ : Type} (ds : List (Definition κ)) : Frame κ :=
  ds.foldl (fun f d => f.bind d.name d) []

/-- The same command among more kinds. -/
def Definition.mapKind {κ ι : Type} (f : κ → ι) (d : Definition κ) : Definition ι :=
  ⟨d.name, f d.kind, d.mode⟩

/-- The same names among more kinds. -/
def Frame.mapKind {κ ι : Type} (f : κ → ι) (frame : Frame κ) : Frame ι :=
  List.map (fun (name, d) => (name, d.mapKind f)) frame

/-- A chain of frames, innermost first. -/
abbrev Scope (κ : Type) := List (Frame κ)

namespace Scope

variable {κ : Type}

/-- What a name stands for. -/
def find? (s : Scope κ) (name : String) : Option (Definition κ) :=
  s.findSome? fun frame => frame.lookup name

/-- Whether a name stands for anything. -/
def contains (s : Scope κ) (name : String) : Bool := (s.find? name).isSome

/-- A scope inside `s` with bindings of its own. -/
def inside (s : Scope κ) (frame : Frame κ) : Scope κ := frame :: s

/-- The names of a frame in order of code points. -/
def sortedNames (frame : Frame κ) : List String :=
  (frame.map (·.1)).mergeSort fun a b => decide (a ≤ b)

/-- A scope with the names of its frames. -/
def describe : Scope κ → String
  | [] => "None"
  | frame :: outer =>
    "Environment([" ++ ", ".intercalate ((sortedNames frame).map Text.quoted) ++ "], parent=" ++
      describe outer ++ ")"

end Scope

/-! ### Numbered scopes -/

/-- A frame and the number of the scope around it. -/
structure ScopeEntry (κ : Type) where
  frame : Frame κ
  parent : Option Nat
deriving Inhabited

/-- Scopes by number. -/
abbrev ScopeTable (κ : Type) := List (ScopeEntry κ)

namespace ScopeTable

variable {κ : Type}

/-- Adds a scope; its number is the size of the table. -/
def add (t : ScopeTable κ) (frame : Frame κ) (parent : Option Nat) : ScopeTable κ :=
  t ++ [⟨frame, parent⟩]

/-- Binds a name in a scope. -/
def bind (t : ScopeTable κ) (i : Nat) (name : String) (d : Definition κ) : ScopeTable κ :=
  t.modify i fun e => { e with frame := e.frame.bind name d }

/-- The chain of frames from scope `i` outwards. A scope lies inside one of lower number, so
`i + 1` steps reach the end. -/
def chain (t : ScopeTable κ) : Nat → Option Nat → Scope κ
  | _, none => []
  | 0, some _ => []
  | steps + 1, some i =>
    match t[i]? with
    | none => []
    | some e => e.frame :: chain t steps e.parent

/-- The scope with number `i`. -/
def get (t : ScopeTable κ) (i : Nat) : Scope κ := t.chain (i + 1) (some i)

end ScopeTable

end Markup
