import Markup.Proofs.Doc.Telling

/-! # Building behind what is there

A builder that already holds some blocks takes what comes like an empty one, and the blocks it
holds stay in front (`Builder.Behind`).  Draining looks at the last block only, so this holds as
soon as the part that is built has a block of its own (`Behind.drain`).  Before that, a run that is
pending goes to the last block in front; if this is an empty paragraph, it becomes what the run
would have become alone, and there is one block less in front (`Behind.drain_first`). -/

namespace Markup

/-! ### Metadata -/

namespace Metadata

/-- Sets all keys of other metadata, in order. -/
def update (m other : Metadata) : Metadata := other.foldl (fun m entry => m.set entry.1 entry.2) m

@[simp] theorem update_cons (m : Metadata) (entry : String × String) (rest : Metadata) :
    m.update (entry :: rest) = (m.set entry.1 entry.2).update rest := rfl

theorem mem_keys_set {m : Metadata} {k key value : String} :
    k ∈ (m.set key value).map Prod.fst ↔ k ∈ m.map Prod.fst ∨ k = key := by
  induction m with
  | nil => simp [set]
  | cons entry rest ih =>
      by_cases hkey : entry.1 = key
      · simp only [set, hkey, if_true, List.map_cons, List.mem_cons, or_right_comm, or_self]
      · simp only [set, hkey, if_false, List.map_cons, List.mem_cons, ih, or_assoc]

theorem nodup_set {m : Metadata} (h : (m.map Prod.fst).Nodup) (key value : String) :
    ((m.set key value).map Prod.fst).Nodup := by
  induction m with
  | nil => simp [set]
  | cons entry rest ih =>
      obtain ⟨hnew, hrest⟩ := List.nodup_cons.mp h
      unfold set
      split
      · exact List.nodup_cons.mpr ⟨hnew, hrest⟩
      · next hkey =>
        refine List.nodup_cons.mpr ⟨fun hmem => ?_, ih hrest⟩
        rcases mem_keys_set.mp hmem with hmem | heq
        · exact hnew hmem
        · exact hkey heq

/-- The later of two values for a key stays. -/
theorem set_set (m : Metadata) (key old value : String) :
    (m.set key old).set key value = m.set key value := by
  induction m with
  | nil => simp [set]
  | cons entry rest ih =>
      by_cases hkey : entry.1 = key
      · simp [set, hkey]
      · simp [set, hkey, ih]

/-- A key that is there keeps its place, whatever other key is set. -/
theorem set_comm {m : Metadata} {key key' : String} (hmem : key ∈ m.map Prod.fst)
    (hne : key ≠ key') (value value' : String) :
    (m.set key' value').set key value = (m.set key value).set key' value' := by
  induction m with
  | nil => exact (List.not_mem_nil hmem).elim
  | cons entry rest ih =>
      by_cases hkey : entry.1 = key
      · simp [set, hkey, hne]
      · have hrest : key ∈ rest.map Prod.fst := by
          rcases List.mem_cons.mp hmem with heq | hrest
          · exact (hkey heq.symm).elim
          · exact hrest
        by_cases hkey' : entry.1 = key'
        · simp [set, hkey', Ne.symm hne]
        · simp [set, hkey, hkey', ih hrest]

theorem update_comm {key : String} (value : String) : ∀ {other m : Metadata},
    key ∈ m.map Prod.fst → key ∉ other.map Prod.fst →
      (m.update other).set key value = (m.set key value).update other
  | [], _, _, _ => rfl
  | entry :: rest, m, hmem, hnew => by
      rw [List.map_cons, List.mem_cons, not_or] at hnew
      have hthere : key ∈ (m.set entry.1 entry.2).map Prod.fst := mem_keys_set.mpr (.inl hmem)
      rw [update_cons, update_cons, update_comm value hthere hnew.2, set_comm hmem hnew.1]

/-- A key that is set before or after an update is the same. -/
theorem update_set {other : Metadata} (h : (other.map Prod.fst).Nodup) (m : Metadata)
    (key value : String) : m.update (other.set key value) = (m.update other).set key value := by
  induction other generalizing m with
  | nil => rfl
  | cons entry rest ih =>
      obtain ⟨hnew, hrest⟩ := List.nodup_cons.mp h
      obtain ⟨k, old⟩ := entry
      by_cases hkey : k = key
      · subst hkey
        have hthere : k ∈ (m.set k old).map Prod.fst := mem_keys_set.mpr (.inr rfl)
        rw [set, if_pos rfl, update_cons, update_cons, update_comm value hthere hnew, set_set]
      · rw [set, if_neg hkey, update_cons, update_cons, ih hrest]

theorem nodup_update {m : Metadata} (h : (m.map Prod.fst).Nodup) (other : Metadata) :
    ((m.update other).map Prod.fst).Nodup := by
  induction other generalizing m with
  | nil => exact h
  | cons entry rest ih => exact ih (nodup_set h entry.1 entry.2)

theorem update_update {m' : Metadata} (h : (m'.map Prod.fst).Nodup) (m other : Metadata) :
    m.update (m'.update other) = (m.update m').update other := by
  induction other generalizing m' with
  | nil => rfl
  | cons entry rest ih =>
      rw [update_cons, update_cons, ih (nodup_set h entry.1 entry.2), update_set h]

end Metadata

/-! ### Draining behind other blocks -/

theorem Absorbed.rebuild_rebuild {α β γ : Type} (f : α → β) (g : β → γ) (a : Absorbed α) :
    (a.rebuild f).rebuild g = a.rebuild (fun tree => g (f tree)) := by
  cases a <;> rfl

/-- A run is drained into the last block, whatever stands in front of it. -/
theorem absorbBlocks_append (run : List Inline) {bs : List Block} (hne : bs ≠ []) :
    ∀ front : List Block,
      absorbBlocks run (front ++ bs) = (absorbBlocks run bs).rebuild (front ++ ·)
  | [] => by
      rw [List.nil_append]
      cases absorbBlocks run bs <;> rfl
  | b :: front => by
      obtain ⟨c, rest, heq⟩ : ∃ c rest, front ++ bs = c :: rest := by
        cases hcons : front ++ bs with
        | nil => exact (hne (List.append_eq_nil_iff.mp hcons).2).elim
        | cons c rest => exact ⟨c, rest, rfl⟩
      have htail := absorbBlocks_append run hne front
      rw [List.cons_append]
      rw [heq] at htail ⊢
      rw [absorbBlocks, htail, Absorbed.rebuild_rebuild]
      rfl

/-- An empty paragraph at the end takes the run. -/
theorem absorbBlocks_emptyPar (run : List Inline) (front : List Block) :
    absorbBlocks run (front ++ [.par []]) = .ok (front ++ [.par run], []) := by
  rw [absorbBlocks_append run (List.cons_ne_nil _ _), absorbBlocks, absorbBlock]
  rfl

/-- The second builder holds what the first one does, behind other blocks and other metadata. -/
structure Builder.Behind (m : Metadata) (front : List Block) (s t : Builder) : Prop where
  metadata : t.metadata = m.update s.metadata
  keys : (s.metadata.map Prod.fst).Nodup
  blocks : t.blocks = front ++ s.blocks
  pending : t.pending = s.pending

namespace Builder.Behind

variable {m : Metadata} {front : List Block} {s s' t : Builder} {log last : List LogEntry}

theorem update (h : Behind m front s t) (entries : Metadata) :
    Behind m front { s with metadata := s.metadata.update entries }
      { t with metadata := t.metadata.update entries } where
  metadata := by rw [h.metadata, Metadata.update_update h.keys]
  keys := Metadata.nodup_update h.keys entries
  blocks := h.blocks
  pending := h.pending

theorem pushInline (h : Behind m front s t) (i : Inline) :
    Behind m front { s with pending := s.pending ++ [i] } { t with pending := t.pending ++ [i] } :=
  { h with pending := by rw [h.pending] }

/-- Draining does the same in both, unless the run would go to a block in front. -/
theorem drain (h : Behind m front s t) (hown : s.blocks = [] → s.pending = [])
    (hrun : Build.drain ⟨s, log⟩ = (.ok (), ⟨s', last⟩)) :
    ∃ t', Build.drain ⟨t, log⟩ = (.ok (), ⟨t', last⟩) ∧ Behind m front s' t' := by
  rw [Build.drain_run] at hrun ⊢
  rw [h.pending]
  by_cases hpending : s.pending.isEmpty = true
  · rw [if_pos hpending] at hrun ⊢
    cases hrun
    exact ⟨t, rfl, h⟩
  · rw [if_neg hpending] at hrun ⊢
    have hne : s.blocks ≠ [] := by
      intro hnil
      exact hpending (List.isEmpty_iff.mpr (hown hnil))
    rw [h.blocks, absorbBlocks_append s.pending hne front]
    cases habsorb : absorbBlocks s.pending s.blocks with
    | error e =>
        rw [habsorb] at hrun
        cases hrun
    | ok drained =>
        rw [habsorb] at hrun
        cases hrun
        exact ⟨_, rfl, h.metadata, h.keys, rfl, rfl⟩

/-- The first run becomes a paragraph, in both; an empty one in front is that paragraph. -/
theorem drain_first (h : Behind m (front ++ [.par []]) s t) (hblocks : s.blocks = [])
    (hpending : s.pending ≠ []) (hrun : Build.drain ⟨s, log⟩ = (.ok (), ⟨s', last⟩)) :
    ∃ t', Build.drain ⟨t, log⟩ = (.ok (), ⟨t', last⟩) ∧ Behind m front s' t' := by
  have hsome : ¬ s.pending.isEmpty = true := fun hnil => hpending (List.isEmpty_iff.mp hnil)
  have halone : absorbBlocks s.pending [] = .ok ([.par s.pending], []) := by
    rw [absorbBlocks]
  rw [Build.drain_run, if_neg hsome, hblocks, halone] at hrun
  cases hrun
  rw [Build.drain_run, h.pending, if_neg hsome, h.blocks, hblocks, List.append_nil,
    absorbBlocks_emptyPar]
  exact ⟨_, rfl, h.metadata, h.keys, rfl, rfl⟩

theorem pushBlock (h : Behind m front s t) (value : Block) :
    Behind m front { s with blocks := s.blocks ++ [value] }
      { t with blocks := t.blocks ++ [value] } :=
  { h with blocks := by rw [h.blocks, List.append_assoc] }

end Builder.Behind

theorem pushBlock_run (value : Block) (s : Session) :
    Build.pushBlock value s = match Build.drain s with
      | (.ok _, after) =>
          (.ok (), { after with
            builder := { after.builder with blocks := after.builder.blocks ++ [value] } })
      | (.error e, after) => (.error e, after) := by
  rw [Build.pushBlock, bind_run]
  rcases Build.drain s with ⟨e | u, after⟩ <;> rfl

theorem intoDocument_eq_ok_iff {s s' : Session} {d : Document} :
    Build.intoDocument s = (.ok d, s') ↔
      Build.drain s = (.ok (), s') ∧ d = ⟨s'.builder.metadata, s'.builder.blocks⟩ := by
  rw [Build.intoDocument, bind_run, Build.intoBlocks, bind_run]
  rcases Build.drain s with ⟨e | u, after⟩
  · refine iff_of_false (fun h => ?_) fun h => ?_
    · cases h
    · cases h.1
  · constructor
    · intro h
      cases h
      exact ⟨rfl, rfl⟩
    · rintro ⟨h, rfl⟩
      cases h
      rfl

end Markup
