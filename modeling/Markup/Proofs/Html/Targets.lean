import Mathlib.Data.List.Count
import Mathlib.Data.List.Nodup
import Markup.Proofs.Html.Outline

/-! # Links and their targets

The writer makes three kinds of links of its own: a heading links to itself, a reference to its note
and a note back to its reference.  They point at the ids of headings, notes and references
(`targets`), and at each of these ids there points a link (`ownLink_iff`).

The slugs of headings are made different from one another, but not from the ids of notes and
references, which are made from numbers.  `links_unambiguous_iff` says when that does no harm: each
link has one target just if no heading has an id of the form `fn-1` or `fn-link-1` with the number
of a note.  Since a heading takes the slug of its text, perhaps with a number, it is enough that no
text has a slug of such a form, or `fn` or `fn-link` itself. -/

namespace Markup.Html

/-! ### The links of the writer -/

/-- The ids of headings, references and notes. -/
def targets (tags : List (List Char)) : List String :=
  headingIds tags ++ ((references tags).map Prod.snd ++ noteIds tags)

/-- A link to `#id` that the writer makes of its own: from a heading to itself, from a reference to
its note, or from a note back to its reference. -/
inductive OwnLink (tags : List (List Char)) (id : String) : Prop
  | heading (h : SelfLinked tags id)
  | reference {r : String × String} (h : r ∈ references tags) (hid : r.1 = "#" ++ id)
  | back {n : Nat} (h : BackLinked tags n) (hid : "fn-link-" ++ toString n = id)

/-- The ids that are made from the numbers of `count` notes. -/
def numberIds (count : Nat) : List String :=
  (List.range' 1 count).map (numbered "fn-link") ++ (List.range' 1 count).map (numbered "fn")

theorem mem_numberIds {count : Nat} {id : String} :
    id ∈ numberIds count ↔
      ∃ n ∈ List.range' 1 count, id = numbered "fn-link" n ∨ id = numbered "fn" n := by
  simp only [numberIds, List.mem_append, List.mem_map, ← exists_or, ← and_or_left, eq_comm]

theorem nodup_numberIds (count : Nat) : (numberIds count).Nodup := by
  have hmap : ∀ slug, ((List.range' 1 count).map (numbered slug)).Nodup := fun slug =>
    List.Nodup.map (fun _ _ h => (numbered_inj.mp h).2) List.nodup_range'
  refine List.nodup_append.mpr ⟨hmap _, hmap _, fun id hid id' hid' heq => ?_⟩
  obtain ⟨n, -, rfl⟩ := List.mem_map.mp hid
  obtain ⟨k, -, rfl⟩ := List.mem_map.mp hid'
  exact absurd (numbered_inj.mp heq).1 (by decide)

/-- A reference points at the id of its note. -/
theorem referenceTo_fst (n : Nat) : (referenceTo n).1 = "#" ++ numbered "fn" n := by
  rw [referenceTo, numbered]
  apply String.toList_inj.mp
  simp

section mentions

variable {tags : List (List Char)} {count : Nat}

theorem targets_perm (h : Mentions tags (List.range' 1 count) (List.range' 1 count)) :
    (targets tags).Perm (headingIds tags ++ numberIds count) := by
  have hreferences : ((references tags).map Prod.snd).Perm
      ((List.range' 1 count).map (numbered "fn-link")) := by
    have hids := h.refers.map Prod.snd
    rw [List.map_map] at hids
    exact hids
  rw [targets, h.lists]
  exact (hreferences.append_right _).append_left _

/-- A note with a link back is one of the notes. -/
theorem BackLinked.mem_noteIds {n : Nat} (h : BackLinked tags n) :
    "fn-" ++ toString n ∈ noteIds tags := by
  obtain ⟨before, inner, after, rfl, -⟩ := h
  have hstart := (note_start n).2
  rw [tag_numbered (by decide) (by decide)] at hstart
  exact List.mem_filterMap.mpr ⟨_, by simp, hstart⟩

/-- Links and targets match: no link points nowhere, and there is a link to every target. -/
theorem ownLink_iff (h : Mentions tags (List.range' 1 count) (List.range' 1 count))
    (hself : ∀ id ∈ headingIds tags, SelfLinked tags id) (id : String) :
    OwnLink tags id ↔ id ∈ targets tags := by
  rw [(targets_perm h).mem_iff, List.mem_append, mem_numberIds]
  constructor
  · intro hlink
    cases hlink with
    | heading hlinked => exact .inl hlinked.mem_headingIds
    | @reference r hr hid =>
        obtain ⟨n, hn, rfl⟩ := List.mem_map.mp (h.refers.mem_iff.mp hr)
        rw [referenceTo_fst] at hid
        exact .inr ⟨n, hn, .inr ((String.append_right_inj "#").mp hid).symm⟩
    | @back n hback hid =>
        have hnote := hback.mem_noteIds
        rw [h.lists] at hnote
        obtain ⟨k, hk, heq⟩ := List.mem_map.mp hnote
        have hsame : numbered "fn" k = numbered "fn" n := heq
        rw [(numbered_inj.mp hsame).2] at hk
        exact .inr ⟨n, hk, .inl hid.symm⟩
  · rintro (hheading | ⟨n, hn, rfl | rfl⟩)
    · exact .heading (hself id hheading)
    · exact .back (h.backLinks n hn) rfl
    · exact .reference (h.refers.mem_iff.mpr (List.mem_map_of_mem hn)) (referenceTo_fst n)

/-- Each link has one target just if no heading has an id that is made from a number. -/
theorem count_targets_iff (h : Mentions tags (List.range' 1 count) (List.range' 1 count))
    (hself : ∀ id ∈ headingIds tags, SelfLinked tags id) (hnodup : (headingIds tags).Nodup) :
    (∀ id, OwnLink tags id → (targets tags).count id = 1) ↔
      ∀ n ∈ List.range' 1 count,
        "fn-" ++ toString n ∉ headingIds tags ∧ "fn-link-" ++ toString n ∉ headingIds tags := by
  simp only [ownLink_iff h hself]
  rw [← List.nodup_iff_count_eq_one, (targets_perm h).nodup_iff, List.nodup_append]
  constructor
  · rintro ⟨-, -, hdisjoint⟩ n hn
    refine ⟨fun hmem => ?_, fun hmem => ?_⟩
    · exact hdisjoint _ hmem _ (mem_numberIds.mpr ⟨n, hn, .inr rfl⟩) rfl
    · exact hdisjoint _ hmem _ (mem_numberIds.mpr ⟨n, hn, .inl rfl⟩) rfl
  · intro hfree
    refine ⟨hnodup, nodup_numberIds count, fun id hid other hother heq => ?_⟩
    rw [← heq] at hother
    obtain ⟨n, hn, rfl | rfl⟩ := mem_numberIds.mp hother
    · exact (hfree n hn).2 hid
    · exact (hfree n hn).1 hid

end mentions

/-! ### Reserved slugs -/

/-- A slug that has the form of an id made from a number, or gets it with a number. -/
def Reserved (slug : String) : Prop :=
  ∃ stem ∈ ["fn", "fn-link"], slug = stem ∨ ∃ n, slug = numbered stem n

/-- A heading whose text is not reserved has an id that is not made from a number. -/
theorem numbered_notMem_slugsFor {texts : List String}
    (h : ∀ text ∈ texts, ¬ Reserved (slugify text)) {stem : String}
    (hstem : stem ∈ ["fn", "fn-link"]) (n : Nat) : numbered stem n ∉ slugsFor [] texts := by
  intro hmem
  obtain ⟨text, htext, heq | ⟨k, -, heq⟩⟩ := slugsFor_form hmem
  · exact h text htext ⟨stem, hstem, .inr ⟨n, heq.symm⟩⟩
  · exact h text htext ⟨stem, hstem, .inl (numbered_inj.mp heq).1.symm⟩

/-- An id made from a number is written as it is. -/
theorem escape_numbered {stem : String} (hstem : stem ∈ ["fn", "fn-link"]) (n : Nat) :
    escape (numbered stem n) = numbered stem n := by
  have hunmarked : ∀ stem ∈ ["fn", "fn-link"], Unmarked (stem ++ "-") := by decide
  exact escape_append_toString (hunmarked stem hstem) n

/-! ### Documents -/

/-- **When links are unambiguous.**  In a document that is written there is a target for every link
of the writer, and a link for every target.  Each link has one target exactly if no heading has the
id `fn-n` of a note or the id `fn-link-n` of its reference, and that is so if no text of a heading
has a reserved slug. -/
theorem links_unambiguous_iff (o : Options) {d : Document} {html : String}
    (h : render o d = .ok html) :
    ∃ tags texts, cut html = some tags ∧ texts.Perm d.headings ∧
      headingIds tags = (slugsFor [] texts).map escape ∧
      Mentions tags (List.range' 1 (blocksNotes d.content))
        (List.range' 1 (blocksNotes d.content)) ∧
      (∀ id, OwnLink tags id ↔ id ∈ targets tags) ∧
      ((∀ id, OwnLink tags id → (targets tags).count id = 1) ↔
        ∀ n ∈ List.range' 1 (blocksNotes d.content),
          "fn-" ++ toString n ∉ headingIds tags ∧ "fn-link-" ++ toString n ∉ headingIds tags) ∧
      ((∀ text ∈ d.headings, ¬ Reserved (slugify text)) →
        ∀ id, OwnLink tags id → (targets tags).count id = 1) := by
  obtain ⟨tags, met, refs, hcut, hmet, -, hmarks, hmentions, -⟩ := render_landmarks h
  have htexts : (met.filterMap Block.headingText?).Perm d.headings := hmet.filterMap _
  have hcount := count_targets_iff hmentions hmarks.selfLinked (nodup_headingIds hmarks)
  refine ⟨tags, _, hcut, htexts, hmarks.heads, hmentions, ownLink_iff hmentions hmarks.selfLinked,
    hcount, fun hreserved => hcount.mpr fun n _ => ?_⟩
  -- an id that is made from a number would be the slug of a text
  have hfree : ∀ stem ∈ ["fn", "fn-link"], numbered stem n ∉ headingIds tags := by
    intro stem hstem hmem
    rw [hmarks.heads, ← escape_numbered hstem, List.mem_map_of_injective escape_injective] at hmem
    exact numbered_notMem_slugsFor (fun text htext => hreserved text (htexts.mem_iff.mp htext))
      hstem n hmem
  exact ⟨hfree "fn" (by decide), hfree "fn-link" (by decide)⟩

/-- Headings of one text, and a note with a heading of that text in it. -/
def annotatedHeadings : Document where
  content := [.heading 1 [.text "Notes"], .heading 2 [.text "Notes",
    .footnote [.heading 3 [.text "Notes"]]]]

theorem links_unambiguous_iff_annotated :
    ∃ html tags, render {} annotatedHeadings = .ok html ∧ cut html = some tags ∧
      (targets tags).length = 5 ∧ ∀ id ∈ targets tags, (targets tags).count id = 1 := by
  have hformed : annotatedHeadings.WellFormed := by
    simp [annotatedHeadings, Document.WellFormed, blocksMadeOf, Block.MadeOf, Inline.MadeOf,
      inlinesMadeOf, Writable]
  have hreserved : ∀ text ∈ annotatedHeadings.headings, ¬ Reserved (slugify text) := by
    have hslug : ∀ text ∈ annotatedHeadings.headings, slugify text = "notes" := by decide +kernel
    rintro text htext ⟨stem, hstem, hform⟩
    rw [hslug text htext] at hform
    have hne : ∀ stem ∈ ["fn", "fn-link"], "notes" ≠ stem := by decide
    obtain heq | ⟨n, heq⟩ := hform
    · exact hne stem hstem heq
    · have hhyphen : '-' ∈ "notes".toList := by
        rw [heq]
        simp [numbered]
      exact absurd hhyphen (by decide)
  obtain ⟨html, hrender, -⟩ := exists_flow_render {} hformed
  obtain ⟨tags, texts, hcut, htexts, hids, hmentions, hown, -, hone⟩ :=
    links_unambiguous_iff {} hrender
  refine ⟨html, tags, hrender, hcut, ?_, fun id hid => hone hreserved id ((hown id).mpr hid)⟩
  rw [(targets_perm hmentions).length_eq, List.length_append, hids, List.length_map,
    length_slugsFor, htexts.length_eq]
  rfl

/-- A heading with the text `fn-1`, and a note. -/
def disguisedHeading : Document where
  content := [.heading 1 [.text "fn-1"], .par [.footnote []]]

/-- The heading and the note have the same id, and the reference points at both. -/
theorem disguisedHeading_ambiguous :
    ∃ html tags, render {} disguisedHeading = .ok html ∧ cut html = some tags ∧
      headingIds tags = ["fn-1"] ∧ noteIds tags = ["fn-1"] ∧ OwnLink tags "fn-1" ∧
      (targets tags).count "fn-1" = 2 := by
  have hformed : disguisedHeading.WellFormed := by
    simp [disguisedHeading, Document.WellFormed, blocksMadeOf, Block.MadeOf, Inline.MadeOf,
      inlinesMadeOf, Writable]
  obtain ⟨html, hrender, -⟩ := exists_flow_render {} hformed
  obtain ⟨tags, met, refs, hcut, hmet, -, hmarks, hmentions, -⟩ := render_landmarks hrender
  have htexts : met.filterMap Block.headingText? = ["fn-1"] :=
    List.perm_singleton.mp (hmet.filterMap Block.headingText?)
  have hids : headingIds tags = ["fn-1"] := by
    have hslugs : (slugsFor [] ["fn-1"]).map escape = ["fn-1"] := by decide +kernel
    rw [hmarks.heads, htexts]
    exact hslugs
  have hnotes : noteIds tags = ["fn-1"] := hmentions.lists
  have hreferences : references tags = [("#fn-1", "fn-link-1")] :=
    List.perm_singleton.mp hmentions.refers
  refine ⟨html, tags, hrender, hcut, hids, hnotes, ?_, ?_⟩
  · exact .reference (hreferences ▸ List.mem_cons_self) rfl
  · rw [targets, hids, hnotes, hreferences]
    decide

end Markup.Html
