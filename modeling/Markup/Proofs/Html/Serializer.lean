import Markup.Proofs.Doc.Kinds
import Markup.Proofs.Html.Notes

/-! # Serializers can be used again

A serializer writes one document after another to the same stream.  What it has in mind while it
writes, slugs and notes, belongs to one document; a document that fails may leave it half filled.
`Serializer.Used` are the serializers that such a history can lead to, with anything at all left
behind.  `Serializer.write_used` says that the history does not matter and that a document is
written whole or not at all, and which documents of nodes fail: those with a heading outside the six
levels, anywhere in the tree. -/

namespace Markup.Html

/-- A body can be written exactly if the document is well formed. -/
theorem exists_bodyHtml_iff (d : Document) :
    (∃ r, bodyHtml d.content {} = .ok r) ↔ d.WellFormed := by
  constructor
  · rintro ⟨r, hrun⟩
    exact wellFormed_of_bodyHtml hrun
  · intro h
    have hempty : Writer.WellFormed {} := fun _ hnote => by cases hnote
    obtain ⟨p, w, hrun, -⟩ := bodyHtml_writes h {} hempty
    exact ⟨(p, w), hrun⟩

namespace Serializer

/-- A serializer with these options after any documents, written or failed, whatever the last of
them left behind. -/
inductive Used (o : Options) : Serializer → Prop
  | fresh (written : String) : Used o { options := o, written }
  | write {s : Serializer} (h : Used o s) (d : Document) (left : Writer) :
      Used o { (s.write d).2 with writer := left }

theorem write_of_ok {s : Serializer} {d : Document} {body notes : String} {w : Writer}
    (h : bodyHtml d.content {} = .ok ((body, notes), w)) :
    s.write d = (.ok (), { s with
      writer := w, written := s.written ++ pageHtml s.options d.metadata body notes }) := by
  unfold write
  rw [StateT.run, h]

theorem write_of_error {s : Serializer} {d : Document} {e : RenderError}
    (h : bodyHtml d.content {} = .error e) : s.write d = (.error e, { s with writer := {} }) := by
  unfold write
  rw [StateT.run, h]

/-- Writing changes no option. -/
theorem write_options (s : Serializer) (d : Document) : (s.write d).2.options = s.options := by
  cases h : bodyHtml d.content {} with
  | error e => rw [write_of_error h]
  | ok r => rw [write_of_ok h]

theorem Used.options_eq {o : Options} {s : Serializer} (h : Used o s) : s.options = o := by
  induction h with
  | fresh written => rfl
  | write _ d _ ih => exact (write_options _ d).trans ih

/-- A document fails exactly if it is not well formed. -/
theorem exists_write_error_iff (s : Serializer) (d : Document) :
    (∃ e, (s.write d).1 = .error e) ↔ ¬ d.WellFormed := by
  rw [← exists_bodyHtml_iff]
  cases h : bodyHtml d.content {} with
  | error e => simp [write_of_error h]
  | ok r => simp [write_of_ok h]

/-- What a failing document leaves of the stream. -/
theorem write_written_of_error {s : Serializer} {d : Document} {e : RenderError}
    (h : (s.write d).1 = .error e) : (s.write d).2.written = s.written := by
  cases hrun : bodyHtml d.content {} with
  | error e => rw [write_of_error hrun]
  | ok r =>
      rw [write_of_ok hrun] at h
      cases h

/-- Only the options matter to what is written. -/
theorem write_eq_fresh (s : Serializer) (d : Document) :
    (s.write d).1 = (write { options := s.options } d).1 ∧
      (s.write d).2.written = s.written ++ (write { options := s.options } d).2.written := by
  cases h : bodyHtml d.content {} with
  | error e => simp [write_of_error h]
  | ok r => simp [write_of_ok h]

/-- **All or nothing**: a serializer that has been used, whatever became of the documents before,
fails on a document of nodes exactly if there is a heading outside the six levels anywhere in it.
When it fails it writes nothing; otherwise it writes what a fresh serializer with the same options
writes. -/
theorem write_used {o : Options} {s : Serializer} {d : Document} (hs : Used o s)
    (hd : d.WellTyped) :
    ((∃ e, (s.write d).1 = .error e) ↔
      ∃ level, .heading level ∈ d.kinds ∧ ¬ (1 ≤ level ∧ level ≤ 6)) ∧
    ((∃ e, (s.write d).1 = .error e) → (s.write d).2.written = s.written) ∧
    ((s.write d).1 = .ok () → (write { options := o } d).1 = .ok () ∧
      (s.write d).2.written = s.written ++ (write { options := o } d).2.written) := by
  obtain ⟨hresult, hwritten⟩ := write_eq_fresh s d
  rw [hs.options_eq] at hresult hwritten
  refine ⟨?_, ?_, ?_⟩
  · rw [exists_write_error_iff, d.wellFormed_iff hd]
    simp only [Classical.not_forall, exists_prop]
  · rintro ⟨e, he⟩
    exact write_written_of_error he
  · intro hok
    exact ⟨hresult.symm.trans hok, hwritten⟩

/-- A heading of level seven in a note in the label of an item in a cell. -/
def deepDocument : Document where
  content := [.heading 1 [.footnote []], .table [] [[.mk [.list .unordered [
    .mk [] (some [.footnote [.heading 7 []]])]] none 1 1]]]

/-- A serializer that failed, with a note and a slug left behind. -/
def wornSerializer : Serializer :=
  { (write { written := "<hr>\n" } deepDocument).2 with
    writer := { notes := [[.rule]], slugs := ["a"] } }

theorem write_used_deep :
    Used {} wornSerializer ∧ deepDocument.WellTyped ∧
      (∃ e, (wornSerializer.write deepDocument).1 = .error e) ∧
      (wornSerializer.write deepDocument).2.written = wornSerializer.written := by
  have hs : Used {} wornSerializer := .write (.fresh _) _ _
  have hd : deepDocument.WellTyped := by
    simp [deepDocument, Document.WellTyped, blocksMadeOf, Block.MadeOf, Inline.MadeOf,
      inlinesMadeOf, rowsMadeOf, cellsMadeOf, itemsMadeOf, optionMadeOf]
  obtain ⟨hfails, hwhole, -⟩ := write_used hs hd
  have herror := hfails.mpr ⟨7, by decide, by decide⟩
  exact ⟨hs, hd, herror, hwhole herror⟩

end Serializer

end Markup.Html
