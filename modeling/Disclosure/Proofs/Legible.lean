import Disclosure.Proofs.Explained

/-!
# Disclosure.Proofs.Legible — explanations that can be printed

A surrogate has no place on a screen, and an integer with too many digits is never written out.  An explanation without
either is legible: all its lines can be printed.

* `Request.LinesLegible`, `Request.Legible`: the lines of the credentials, and the whole explanation.
* `Request.LinesLegible.all_isPrintable`, `Request.Legible.all_isPrintable_setLines`: what can be printed then.
-/

namespace Disclosure

namespace Text

theorem isPrintable_intercalate {separator : Text} {texts : List Text} (hs : separator.isPrintable = true)
    (h : ∀ t ∈ texts, t.isPrintable = true) : isPrintable (separator.intercalate texts) = true := by
  induction texts with
  | nil => rfl
  | cons t rest ih =>
    cases rest with
    | nil => simpa using h
    | cons u rest =>
      rw [List.intercalate_cons_cons, isPrintable_append, isPrintable_append, hs, h t (by simp),
        ih (fun v hv => h v (by simp [hv]))]
      rfl

end Text

namespace Request

/-- What the lines of the credentials hold can be shown and printed: formats, and the documents with their types. -/
structure LinesLegible (r : Request) (documents : Wallet) : Prop where
  formats : ∀ q ∈ r.catalogue.entries, q.format.isPrintable = true
  showable : ∀ d ∈ documents, d.isShowable = true
  documents : ∀ d ∈ documents, d.text.isPrintable = true

/-- Everything that an explanation holds can be shown and printed: the purposes of the sets too. -/
structure Legible (r : Request) (documents : Wallet) : Prop extends r.LinesLegible documents where
  purposes : ∀ s ∈ r.grouping.getD [], s.purpose.isShowable = true ∧ s.purpose.plain.isPrintable = true

variable {r : Request} {documents : Wallet}

theorem LinesLegible.isPrintable_line (h : r.LinesLegible documents) {q : CredentialQuery}
    (hq : q ∈ r.catalogue.entries) {line : Line} (hline : q.line (some documents) = .ok line) : line.isPrintable = true := by
  obtain ⟨found, hfound, -, rfl⟩ := CredentialQuery.line_eq_ok_iff.1 hline
  have hhead : Line.isPrintable q.head = true := by
    simp [Line.isPrintable, CredentialQuery.head, Span.plain, Span.dim, h.formats q hq]
  have htexts : ∀ t ∈ found.map Document.text, t.isPrintable = true := by
    intro t ht
    obtain ⟨d, hd, rfl⟩ := List.mem_map.1 ht
    exact h.documents d ((mem_answers_iff hfound).1 hd).1
  have hanswers : Line.isPrintable (answersShown found) = true := by
    cases found with
    | nil => rfl
    | cons d rest =>
      have hjoined := Text.isPrintable_intercalate (Text.isPrintable_ofString ", ") htexts
      simpa [Line.isPrintable, answersShown, Span.plain, Span.green] using hjoined
  simp only [Line.isPrintable, List.all_append, Bool.and_eq_true] at hhead hanswers ⊢
  exact ⟨hhead, hanswers⟩

theorem LinesLegible.all_isPrintable (h : r.LinesLegible documents) :
    (credentialHeading :: (queryLines (some documents) r.catalogue.entries).1).all Line.isPrintable = true := by
  rw [List.all_cons, Bool.and_eq_true, List.all_eq_true]
  refine ⟨rfl, fun line hline => ?_⟩
  obtain ⟨q, hq, hqline⟩ := exists_line_of_mem hline
  exact h.isPrintable_line hq hqline

theorem Legible.hiddenPurpose?_eq_none (h : r.Legible documents) : r.hiddenPurpose? = none := by
  rw [hiddenPurpose?, List.findIdx?_eq_none_iff]
  intro s hs
  simp [(h.purposes s hs).1]

theorem Legible.isPrintable_summary (h : r.Legible documents) : ∀ t ∈ r.summary, t.isPrintable = true := by
  have hpurposes := h.purposes
  unfold summary
  split
  · simp [Text.isPrintable_append]
  · simp
  · rename_i s rest hgrouping
    rw [hgrouping, Option.getD_some] at hpurposes
    intro t ht
    obtain ⟨⟨s', i⟩, hmem, rfl⟩ := List.mem_map.1 ht
    have hpurpose := (hpurposes s' (List.fst_mem_of_mem_zipIdx hmem)).2
    show (CredentialSet.summary s' i).isPrintable = true
    unfold CredentialSet.summary
    rw [Text.isPrintable_append, Text.isPrintable_ofString, Bool.true_and]
    split
    · rfl
    · rw [Text.isPrintable_append, Text.isPrintable_ofString, hpurpose]
      rfl

theorem Legible.all_isPrintable_setLines (h : r.Legible documents) : r.setLines.all Line.isPrintable = true := by
  have hsummary : (r.summary.map (fun t => Line.ofText (Text.ofString "  " ++ t))).all Line.isPrintable = true := by
    rw [List.all_map, List.all_eq_true]
    intro t ht
    simp [Line.isPrintable, Line.ofText, Span.plain, Text.isPrintable_append, h.isPrintable_summary t ht]
  unfold setLines
  rw [List.all_append, List.all_append, hsummary, Bool.and_true]
  split <;> simp [setHeading, Line.isPrintable, Span.bold, Span.yellow]

end Request

end Disclosure
