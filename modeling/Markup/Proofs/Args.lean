import Markup.Args
import Mathlib.Data.List.Forall2

/-! # Arguments as they are read and taken

Reading the arguments of a call keeps those without a name in order, and of those with one a
single one of each name (`Args.read_reads`).  Taking arguments is inverted step by step: from what a
command took, and that nothing was left over, it follows which arguments there were
(`Args.popPositional_ok`, `Args.popOptional_ok`, `Args.checkNone_ok`). -/

namespace Markup

/-! ### Keywords -/

theorem Keywords.mem_set {n name : String} {t u : Deferred} : ∀ {ks : Keywords},
    (n, t) ∈ ks.set name u → (n, t) ∈ ks ∨ (n = name ∧ t = u)
  | [], h => by
      cases List.mem_singleton.mp h
      exact .inr ⟨rfl, rfl⟩
  | (m, old) :: rest, h => by
      unfold Keywords.set at h
      split at h
      · next hm =>
        rcases List.mem_cons.mp h with heq | hrest
        · cases heq
          exact .inr ⟨hm, rfl⟩
        · exact .inl (List.mem_cons_of_mem _ hrest)
      · rcases List.mem_cons.mp h with heq | hrest
        · cases heq
          exact .inl List.mem_cons_self
        · rcases Keywords.mem_set hrest with hold | hnew
          · exact .inl (List.mem_cons_of_mem _ hold)
          · exact .inr hnew

theorem Keywords.mem_keys_set {n name : String} {u : Deferred} : ∀ {ks : Keywords},
    n ∈ (ks.set name u).map Prod.fst ↔ n ∈ ks.map Prod.fst ∨ n = name
  | [] => by simp [Keywords.set]
  | (m, old) :: rest => by
      unfold Keywords.set
      split
      · next hm => simp only [List.map_cons, List.mem_cons, hm]; tauto
      · simp only [List.map_cons, List.mem_cons, Keywords.mem_keys_set, or_assoc]

theorem Keywords.mem_of_pop? {name : String} {t : Deferred} : ∀ {ks others : Keywords},
    ks.pop? name = some (t, others) → (name, t) ∈ ks ∧ ∀ entry ∈ others, entry ∈ ks
  | (m, old) :: rest, others, h => by
      unfold Keywords.pop? at h
      split at h
      · next hm =>
        cases h
        exact ⟨hm ▸ List.mem_cons_self, fun _ he => List.mem_cons_of_mem _ he⟩
      · obtain ⟨⟨found, others'⟩, hpop, heq⟩ := Option.map_eq_some_iff.mp h
        cases heq
        obtain ⟨hmem, hothers⟩ := Keywords.mem_of_pop? hpop
        refine ⟨List.mem_cons_of_mem _ hmem, ?_⟩
        intro entry he
        rcases List.mem_cons.mp he with rfl | he
        · exact List.mem_cons_self
        · exact List.mem_cons_of_mem _ (hothers entry he)

theorem Keywords.not_mem_of_pop? {name : String} : ∀ {ks : Keywords},
    ks.pop? name = none → name ∉ ks.map Prod.fst
  | [], _ => List.not_mem_nil
  | (m, old) :: rest, h => by
      unfold Keywords.pop? at h
      split at h
      · cases h
      · next hm =>
        have hrest := Keywords.not_mem_of_pop? (Option.map_eq_none_iff.mp h)
        intro hmem
        rcases List.mem_cons.mp hmem with heq | hmem
        · exact hm heq.symm
        · exact hrest hmem

/-! ### Reading -/

/-- An argument read to what a deferred argument stands for. -/
def Argument.ReadsTo (mode : ArgMode) (source : Source) (a : Argument) (t : Deferred) : Prop :=
  ∃ pieces, mode.read source a.value = .ok pieces ∧ t = .ofPieces pieces

/-- What the arguments of a call are read to: those without a name in order, and for every name
the value of an argument of that name. -/
structure Args.Reads (mode : ArgMode) (source : Source) (arguments : List Argument) (args : Args) :
    Prop where
  positional : List.Forall₂ (Argument.ReadsTo mode source)
    (arguments.filter (·.name.isNone)) args.positional
  keywords : ∀ name t, (name, t) ∈ args.keywords →
    ∃ a ∈ arguments, a.name.map Span.fragment = some name ∧ a.ReadsTo mode source t
  names : ∀ name, name ∈ args.keywords.map Prod.fst ↔
    ∃ a ∈ arguments, a.name.map Span.fragment = some name

section reads

variable {mode : ArgMode} {source : Source}

theorem Args.Reads.add {arguments : List Argument} {args : Args} {a : Argument} {t : Deferred}
    (h : args.Reads mode source arguments) (ha : a.ReadsTo mode source t) :
    (args.add a.name t).Reads mode source (arguments ++ [a]) := by
  cases hname : a.name with
  | none =>
      refine ⟨?_, ?_, ?_⟩
      · rw [List.filter_append, List.filter_cons_of_pos (by rw [hname]; rfl)]
        exact List.rel_append h.positional (.cons ha .nil)
      · intro name u hu
        obtain ⟨b, hb, hread⟩ := h.keywords name u hu
        exact ⟨b, List.mem_append_left _ hb, hread⟩
      · intro name
        rw [show (args.add none t).keywords = args.keywords from rfl, h.names name]
        simp [hname]
  | some span =>
      refine ⟨?_, ?_, ?_⟩
      · rw [List.filter_append, List.filter_cons_of_neg (by rw [hname]; simp), List.filter_nil,
          List.append_nil]
        exact h.positional
      · intro name u hu
        rcases Keywords.mem_set hu with hold | ⟨hn, rfl⟩
        · obtain ⟨b, hb, hread⟩ := h.keywords name u hold
          exact ⟨b, List.mem_append_left _ hb, hread⟩
        · exact ⟨a, List.mem_append_right _ List.mem_cons_self, by rw [hname, hn]; rfl, ha⟩
      · intro name
        rw [show (args.add (some span) t).keywords = args.keywords.set span.fragment t from rfl,
          Keywords.mem_keys_set, h.names name]
        simp [hname, or_and_right, exists_or, eq_comm]

theorem Args.readFrom_reads : ∀ {before arguments : List Argument} {args args' : Args},
    args.Reads mode source before → Args.readFrom mode source args arguments = .ok args' →
      args'.Reads mode source (before ++ arguments)
  | before, [], _, _, h, heq => by
      cases heq
      rw [List.append_nil]
      exact h
  | before, a :: rest, args, args', h, heq => by
      unfold Args.readFrom at heq
      cases hread : mode.read source a.value with
      | error e =>
          rw [hread] at heq
          cases heq
      | ok pieces =>
          rw [hread] at heq
          have hadd : (args.add a.name (.ofPieces pieces)).Reads mode source (before ++ [a]) :=
            h.add ⟨pieces, hread, rfl⟩
          have hrest := Args.readFrom_reads hadd heq
          rwa [List.append_assoc] at hrest

theorem Args.read_reads {arguments : List Argument} {args : Args}
    (h : Args.read mode source arguments = .ok args) : args.Reads mode source arguments := by
  have hnone : Args.Reads mode source [] {} :=
    ⟨.nil, fun _ _ hmem => (List.not_mem_nil hmem).elim, fun _ => by simp⟩
  exact Args.readFrom_reads hnone h

theorem Args.Reads.exists_of_mem {arguments : List Argument} {args : Args} {t : Deferred}
    (h : args.Reads mode source arguments) (ht : t ∈ args.positional) :
    ∃ a ∈ arguments, a.ReadsTo mode source t := by
  obtain ⟨i, rfl⟩ := List.get_of_mem ht
  have hlength := h.positional.length_eq
  have hread := h.positional.get (hlength.symm ▸ i.isLt) i.isLt
  exact ⟨_, List.mem_of_mem_filter (List.get_mem _ _), hread⟩

/-- Arguments that cannot be read fail as one of them does. -/
theorem Args.readFrom_error : ∀ {arguments : List Argument} {args : Args} {e : ParseError},
    Args.readFrom mode source args arguments = .error e →
      ∃ a ∈ arguments, mode.read source a.value = .error e
  | a :: rest, args, e, h => by
      unfold Args.readFrom at h
      cases hread : mode.read source a.value with
      | error e' =>
          rw [hread] at h
          cases h
          exact ⟨a, List.mem_cons_self, hread⟩
      | ok pieces =>
          rw [hread] at h
          obtain ⟨b, hb, hfail⟩ := Args.readFrom_error h
          exact ⟨b, List.mem_cons_of_mem a hb, hfail⟩

end reads

/-! ### Taking -/

namespace Args

theorem bind_ok {α β : Type} {take : Take α} {next : α → Take β} {args rest : Args} {b : β}
    (h : (take >>= next) args = .ok (b, rest)) :
    ∃ a between, take args = .ok (a, between) ∧ next a between = .ok (b, rest) := by
  change (take args >>= fun p => next p.1 p.2) = _ at h
  cases htake : take args with
  | error e =>
      rw [htake] at h
      cases h
  | ok p =>
      rw [htake] at h
      exact ⟨p.1, p.2, rfl, h⟩

theorem popPositional_ok {name : Option String} {args rest : Args} {t : Deferred}
    (h : popPositional name args = .ok (t, rest)) :
    args = ⟨t :: rest.positional, rest.keywords⟩ := by
  obtain ⟨positional, keywords⟩ := args
  cases positional with
  | nil => cases name <;> cases h
  | cons u us =>
      cases h
      rfl

theorem popOptional_ok {name : String} {args rest : Args} {found : Option Deferred}
    (h : popOptional name args = .ok (found, rest)) :
    (∃ t, found = some t ∧ (name, t) ∈ args.keywords ∧ rest.positional = args.positional) ∨
      (found = none ∧ name ∉ args.keywords.map Prod.fst ∧ rest = args) := by
  obtain ⟨_, _, hget, h⟩ := bind_ok h
  cases hget
  cases hpop : args.keywords.pop? name with
  | none =>
      rw [hpop] at h
      cases h
      exact .inr ⟨rfl, Keywords.not_mem_of_pop? hpop, rfl⟩
  | some p =>
      rw [hpop] at h
      cases h
      exact .inl ⟨p.1, rfl, (Keywords.mem_of_pop? hpop).1, rfl⟩

theorem checkNone_ok {args rest : Args} {u : Unit} (h : checkNone args = .ok (u, rest)) :
    args = {} := by
  obtain ⟨positional, keywords⟩ := args
  cases positional with
  | cons t ts => cases h
  | nil =>
      cases keywords with
      | cons k ks => cases h
      | nil => rfl

theorem checkNoPositional_ok {args rest : Args} {u : Unit}
    (h : checkNoPositional args = .ok (u, rest)) : args.positional = [] ∧ rest = args := by
  obtain ⟨positional, keywords⟩ := args
  cases positional with
  | cons t ts => cases h
  | nil =>
      cases h
      exact ⟨rfl, rfl⟩

end Args

end Markup
