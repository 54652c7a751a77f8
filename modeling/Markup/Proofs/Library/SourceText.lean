import Markup.Proofs.Library.Bodies
import Markup.Proofs.Args
import Markup.Proofs.Call.Tree

/-! # The text that a source stands for

What a parse tree says (`treesChars`), defined on the tree by the names of the commands: a text
says itself, a paragraph break, a rule and metadata say nothing, a link says its text and not its
target, and every other command says what its arguments without a name say, in order.

The standard commands bear the names that this goes by (`Definition.Known`), wherever a name is
looked up (`Scope.Standard`), and the names that a list brings along for its items are known as
well. -/

namespace Markup

/-! ### Texts of trees -/

/-- What a command says, given the texts of its arguments without a name, and whether its target
has been given by keyword. -/
def commandText (name : String) (url : Bool) (texts : List (List Char)) : List Char :=
  if name = "par" ∨ name = "rule" ∨ name = "meta" then []
  else if name = "link" then (if url then texts else texts.drop 1).headD []
  else texts.flatten

/-- Whether an argument is a keyword of this name. -/
def TreeArgument.isKeyword (name : String) : TreeArgument → Bool
  | .keyword n _ => n == name
  | .positional _ => false

mutual

/-- What a tree says. -/
def Tree.chars : Tree → List Char
  | .text text => text.toList
  | .call name args =>
    commandText name (args.any (TreeArgument.isKeyword "url")) (argumentsChars args)

/-- What trees say in turn. -/
def treesChars : List Tree → List Char
  | [] => []
  | t :: rest => t.chars ++ treesChars rest

/-- What each argument without a name says. -/
def argumentsChars : List TreeArgument → List (List Char)
  | [] => []
  | .positional content :: rest => treesChars content :: argumentsChars rest
  | .keyword _ _ :: rest => argumentsChars rest

end

/-- How the arguments of a standard command are read. -/
def standardMode (name : String) : ArgMode :=
  ((standardScope.find? name).map Definition.mode).getD .markup

/-- Pieces whose parse tree says `cs`. -/
def PiecesShow (source : Source) (pieces : List Piece) (cs : List Char) : Prop :=
  ∃ trees, piecesTrees source standardMode pieces = .ok trees ∧ treesChars trees = cs

theorem PiecesShow.nil (source : Source) : PiecesShow source [] [] :=
  ⟨[], by rw [piecesTrees], rfl⟩

theorem PiecesShow.text {source : Source} {rest : List Piece} {cs : List Char}
    (h : PiecesShow source rest cs) (span : Span) :
    PiecesShow source (.text span :: rest) (span.fragment.toList ++ cs) := by
  obtain ⟨trees, htrees, rfl⟩ := h
  exact ⟨_, piecesTrees_text htrees span, rfl⟩

/-- A call whose parse tree says `cs`. -/
def CallShows (source : Source) (c : Call) (cs : List Char) : Prop :=
  ∃ args, argumentsTrees source standardMode (standardMode c.name.fragment) c.args = .ok args ∧
    (Tree.call c.name.fragment args).chars = cs

theorem PiecesShow.call {source : Source} {c : Call} {rest : List Piece} {cs more : List Char}
    (hcall : CallShows source c cs) (h : PiecesShow source rest more) :
    PiecesShow source (.call c :: rest) (cs ++ more) := by
  obtain ⟨args, hargs, rfl⟩ := hcall
  obtain ⟨trees, htrees, rfl⟩ := h
  exact ⟨_, piecesTrees_call hargs htrees, rfl⟩

/-- An argument that shows `cs` once it is read. -/
def Deferred.Shows (source : Source) (t : Deferred) (cs : List Char) : Prop :=
  ∃ pieces, t = .ofPieces pieces ∧ PiecesShow source pieces cs

/-- The arguments of a call, once they are read and each of them shows a text, have a parse tree
that says these texts. -/
theorem exists_argumentsTrees {source : Source} {mode : ArgMode} {arguments : List Argument} :
    ∀ {positional : List Deferred} {texts : List (List Char)},
      List.Forall₂ (Argument.ReadsTo mode source) (arguments.filter (·.name.isNone)) positional →
      List.Forall₂ (Deferred.Shows source) positional texts →
      ∃ args, argumentsTrees source standardMode mode arguments = .ok args ∧
        argumentsChars args = texts ∧
        (args.any (TreeArgument.isKeyword "url") = true ↔
          ∃ a ∈ arguments, a.name.map Span.fragment = some "url") := by
  induction arguments with
  | nil =>
      intro positional texts hreads hshows
      cases hreads
      cases hshows
      exact ⟨[], by rw [argumentsTrees], rfl, by simp⟩
  | cons a rest ih =>
      intro positional texts hreads hshows
      cases hname : a.name with
      | some name =>
          rw [List.filter_cons_of_neg (by rw [hname]; simp)] at hreads
          obtain ⟨args, hargs, hchars, hurl⟩ := ih hreads hshows
          refine ⟨_, argumentsTrees_keyword hname hargs, hchars, ?_⟩
          rw [List.any_cons, Bool.or_eq_true, hurl]
          simp [TreeArgument.isKeyword, hname]
      | none =>
          rw [List.filter_cons_of_pos (by rw [hname]; rfl)] at hreads
          cases hreads with
          | cons hread hreads =>
              cases hshows with
              | cons hshow hshows =>
                  obtain ⟨args, hargs, hchars, hurl⟩ := ih hreads hshows
                  obtain ⟨pieces, hpieces, rfl⟩ := hread
                  obtain ⟨_, ⟨rfl⟩, trees, htrees, rfl⟩ := hshow
                  refine ⟨_, argumentsTrees_positional hname hpieces htrees hargs, ?_, ?_⟩
                  · rw [argumentsChars, hchars]
                  · rw [List.any_cons, Bool.or_eq_true, hurl]
                    simp [TreeArgument.isKeyword, hname]

/-! ### Names -/

/-- What a kind of command says, as `commandText` says it by name. -/
def Builtin.text (kind : Builtin) (url : Bool) (texts : List (List Char)) : List Char :=
  match kind with
  | .par | .rule | .metadata => []
  | .link => (if url then texts else texts.drop 1).headD []
  | _ => texts.flatten

/-- A definition whose name says how its arguments are read and what it says; headings are of the
first three levels. -/
structure Definition.Known (d : Definition Builtin) : Prop where
  mode : d.mode = standardMode d.name
  text : ∀ url texts, commandText d.name url texts = d.kind.text url texts
  level : ∀ level, d.kind = .heading level → 1 ≤ level ∧ level ≤ 3

/-- The definitions that evaluation may come upon. -/
def knownDefinitions : List (Definition Builtin) :=
  standardDefinitions ++ [itemDefinition, termDefinition]

theorem known_of_mem {d : Definition Builtin} (h : d ∈ knownDefinitions) : d.Known := by
  have hmode : ∀ d ∈ knownDefinitions, d.mode = standardMode d.name := by decide +kernel
  have htext : ∀ d ∈ knownDefinitions, ∀ url texts,
      commandText d.name url texts = d.kind.text url texts := by
    simp [knownDefinitions, standardDefinitions, itemDefinition, termDefinition, commandText,
      Builtin.text]
  have hlevel : ∀ d ∈ knownDefinitions, ∀ level, d.kind = .heading level →
      1 ≤ level ∧ level ≤ 3 := by
    simp [knownDefinitions, standardDefinitions, itemDefinition, termDefinition]
  exact ⟨hmode d h, htext d h, hlevel d h⟩

/-- Every name that is found is that of a known definition. -/
def Scope.Standard (s : Scope Builtin) : Prop :=
  ∀ name d, s.find? name = some d → d.Known ∧ d.name = name

theorem Frame.lookup_bind {κ : Type} {name n : String} {d e : Definition κ} : ∀ {f : Frame κ},
    (f.bind n d).lookup name = some e → (name = n ∧ e = d) ∨ f.lookup name = some e
  | [], h => by
      unfold Frame.bind at h
      rw [List.lookup_cons] at h
      split at h
      · next heq => exact .inl ⟨eq_of_beq heq, (Option.some.inj h).symm⟩
      · cases h
  | (m, old) :: rest, h => by
      unfold Frame.bind at h
      split at h
      · next hm =>
        rw [List.lookup_cons] at h
        split at h
        · next heq => exact .inl ⟨(eq_of_beq heq).trans hm, (Option.some.inj h).symm⟩
        · next heq =>
          right
          rw [List.lookup_cons, heq]
          exact h
      · rw [List.lookup_cons] at h
        split at h
        · next heq =>
          right
          rw [List.lookup_cons, heq]
          exact h
        · next heq =>
          rcases Frame.lookup_bind h with hnew | hold
          · exact .inl hnew
          · right
            rw [List.lookup_cons, heq]
            exact hold

/-- What is looked up among definitions is one of them, under its name. -/
theorem Frame.mem_of_lookup_ofDefinitions {κ : Type} {name : String} {e : Definition κ}
    {ds : List (Definition κ)} (h : (Frame.ofDefinitions ds).lookup name = some e) :
    e ∈ ds ∧ e.name = name := by
  have hfold : ∀ (ds : List (Definition κ)) (f : Frame κ),
      (ds.foldl (fun f d => f.bind d.name d) f).lookup name = some e →
        f.lookup name = some e ∨ (e ∈ ds ∧ e.name = name) := by
    intro ds
    induction ds with
    | nil => exact fun f hf => .inl hf
    | cons d ds ih =>
        intro f hf
        rcases ih (f.bind d.name d) hf with hbind | ⟨hmem, hname⟩
        · rcases Frame.lookup_bind hbind with ⟨hname, rfl⟩ | hold
          · exact .inr ⟨List.mem_cons_self, hname.symm⟩
          · exact .inl hold
        · exact .inr ⟨List.mem_cons_of_mem d hmem, hname⟩
  rcases hfold ds [] h with hnil | hmem
  · cases hnil
  · exact hmem

theorem Scope.Standard.inside {s : Scope Builtin} {ds : List (Definition Builtin)}
    (h : s.Standard) (hds : ∀ d ∈ ds, d ∈ knownDefinitions) :
    Scope.Standard (s.inside (.ofDefinitions ds)) := by
  intro name d hfind
  rw [Scope.find?, Scope.inside, List.findSome?_cons] at hfind
  split at hfind
  · next found hlookup =>
    cases hfind
    obtain ⟨hmem, hname⟩ := Frame.mem_of_lookup_ofDefinitions hlookup
    exact ⟨known_of_mem (hds d hmem), hname⟩
  · exact h name d hfind

theorem standardScope_standard : Scope.Standard standardScope := by
  have hnone : Scope.Standard [] := fun _ _ h => by cases h
  exact hnone.inside fun d hd => List.mem_append_left _ hd

end Markup
