import Disclosure.Proofs.RoundTrip
import Disclosure.Request.Summary

/-!
# Disclosure.Proofs.Unambiguous — what a summary tells about a request

Plus signs, bars and the mark of a purpose have blanks around them, and ids hold no blank.  So a line of a summary falls
into its ids in one way only, whatever the purpose behind them says.

* `Text.Splits`: things that can be told, in their written form, from what follows them; `Text.Splits.separated`: lists
  of such things with separators.
* `CredentialSet.summary_eq_iff`: what two sets with one line have in common.
* `Request.summary_unambiguous`: what two requests with one summary have in common.
-/

namespace Disclosure

open Grammar

/-! ### Things and what follows them -/

namespace Text

theorem ofString_intercalate (separator : String) (texts : List String) :
    ofString (separator.intercalate texts) = (ofString separator).intercalate (texts.map ofString) := by
  induction texts with
  | nil => rfl
  | cons s rest ih =>
    cases rest with
    | nil => simp
    | cons t rest =>
      rw [String.intercalate_cons_cons, ofString_append, ofString_append, ih, List.map_cons, List.map_cons,
        List.map_cons, List.intercalate_cons_cons]

theorem intercalate_cons (separator t : Text) (rest : List Text) :
    separator.intercalate (t :: rest) = t ++ rest.flatMap (separator ++ ·) := by
  induction rest generalizing t with
  | nil => simp
  | cons u rest ih => rw [List.intercalate_cons_cons, ih u, List.flatMap_cons, List.append_assoc, List.append_assoc]

/-- In their written form, things of a kind can be told from what may follow them. -/
def Splits {α : Type} (written : α → Text) (Kind : α → Prop) (Rest : Text → Prop) : Prop :=
  ∀ a b x y, Kind a → Kind b → Rest x → Rest y → written a ++ x = written b ++ y → a = b ∧ x = y

/-- Empty, or a blank at the start. -/
def IsBreak (t : Text) : Prop := ∀ p, t.head? = some p → p = .char ' '

/-- A text without blanks ends where the first blank stands. -/
theorem splits_solid : Splits id (fun t : Text => ∀ p ∈ t, p ≠ .char ' ') IsBreak := by
  intro s
  induction s with
  | nil =>
    intro t x y _ ht hx _ h
    cases t with
    | nil => exact ⟨rfl, h⟩
    | cons p t =>
      have hp : x.head? = some p := congrArg List.head? h
      exact absurd (hx p hp) (ht p (by simp))
  | cons p s ih =>
    intro t x y hs ht hx hy h
    cases t with
    | nil =>
      have hp : y.head? = some p := congrArg List.head? h.symm
      exact absurd (hy p hp) (hs p (by simp))
    | cons q t =>
      obtain ⟨rfl, hrest⟩ := List.cons_eq_cons.1 h
      obtain ⟨rfl, hxy⟩ := ih t x y (fun r hr => hs r (by simp [hr])) (fun r hr => ht r (by simp [hr])) hx hy hrest
      exact ⟨rfl, hxy⟩

section Separated

variable {α : Type} {written : α → Text} {Kind : α → Prop} {Rest : Text → Prop} {separator : Text}

theorem Splits.mono {Rest' : Text → Prop} (h : Splits written Kind Rest) (himp : ∀ x, Rest' x → Rest x) :
    Splits written Kind Rest' :=
  fun a b x y ha hb hx hy => h a b x y ha hb (himp x hx) (himp y hy)

/-- Behind the first thing comes the rest, or a separator and another thing. -/
theorem rest_or_separator (l : List α) {x : Text} (hx : Rest x) :
    Rest ((l.map written).flatMap (separator ++ ·) ++ x) ∨
      separator <+: (l.map written).flatMap (separator ++ ·) ++ x := by
  cases l with
  | nil => exact Or.inl hx
  | cons a l =>
    right
    rw [List.map_cons, List.flatMap_cons, List.append_assoc, List.append_assoc]
    exact List.prefix_append _ _

theorem Splits.behind_separators (h : Splits written Kind (fun x => Rest x ∨ separator <+: x))
    (hseparator : ∀ x, Rest x → ¬ separator <+: x) {l m : List α} {x y : Text} (hl : ∀ a ∈ l, Kind a)
    (hm : ∀ a ∈ m, Kind a) (hx : Rest x) (hy : Rest y)
    (heq : (l.map written).flatMap (separator ++ ·) ++ x = (m.map written).flatMap (separator ++ ·) ++ y) :
    l = m ∧ x = y := by
  -- a list that goes on where the other one has ended would put a separator at the start of a rest
  have hends : ∀ (a : α) (k : List α) {z w : Text}, Rest w →
      w ≠ ((a :: k).map written).flatMap (separator ++ ·) ++ z := by
    intro a k z w hw hwz
    refine hseparator w hw ?_
    rw [hwz, List.map_cons, List.flatMap_cons, List.append_assoc, List.append_assoc]
    exact List.prefix_append _ _
  induction l generalizing m with
  | nil =>
    cases m with
    | nil => exact ⟨rfl, heq⟩
    | cons b m => exact absurd heq (hends b m hx)
  | cons a l ih =>
    cases m with
    | nil => exact absurd heq.symm (hends a l hy)
    | cons b m =>
      simp only [List.map_cons, List.flatMap_cons, List.append_assoc] at heq
      obtain ⟨rfl, hrest⟩ := h a b _ _ (hl a (by simp)) (hm b (by simp)) (rest_or_separator l hx)
        (rest_or_separator m hy) (List.append_cancel_left heq)
      obtain ⟨rfl, hxy⟩ := ih (fun c hc => hl c (by simp [hc])) (fun c hc => hm c (by simp [hc])) hrest
      exact ⟨rfl, hxy⟩

/-- When no rest starts with the separator, lists of things with separators between them can be told from the rest. -/
theorem Splits.separated (h : Splits written Kind (fun x => Rest x ∨ separator <+: x))
    (hseparator : ∀ x, Rest x → ¬ separator <+: x) :
    Splits (fun l : List α => separator.intercalate (l.map written)) (fun l => l ≠ [] ∧ ∀ a ∈ l, Kind a) Rest := by
  rintro (_ | ⟨a, l⟩) (_ | ⟨b, m⟩) x y ⟨hl, hkl⟩ ⟨hm, hkm⟩ hx hy heq
  · exact absurd rfl hl
  · exact absurd rfl hl
  · exact absurd rfl hm
  · simp only [List.map_cons, intercalate_cons, List.append_assoc] at heq
    obtain ⟨rfl, hrest⟩ := h a b _ _ (hkl a (by simp)) (hkm b (by simp)) (rest_or_separator l hx)
      (rest_or_separator m hy) heq
    obtain ⟨rfl, hxy⟩ := h.behind_separators hseparator (fun c hc => hkl c (by simp [hc]))
      (fun c hc => hkm c (by simp [hc])) hx hy hrest
    exact ⟨rfl, hxy⟩

end Separated

end Text

open Text

/-! ### Ids and options -/

theorem QueryId.no_blank {id : String} (h : IsIdText id.toList) : ∀ p ∈ ofString id, p ≠ .char ' ' := by
  intro p hp
  obtain ⟨c, hc, rfl⟩ := List.mem_map.1 hp
  obtain ⟨letters, -, hletters, heq⟩ := h
  have hblank : ¬ IsIdChar ' ' := by
    unfold IsIdChar
    decide
  intro hpc
  obtain rfl : c = ' ' := CodePoint.char.inj hpc
  rcases heq with heq | heq <;> rw [heq] at hc
  · exact hblank (hletters _ hc)
  · rcases List.mem_append.1 hc with hmem | hmem
    · exact hblank (hletters _ hmem)
    · exact absurd (List.mem_singleton.1 hmem) (by decide)

/-- An id ends where the first blank stands. -/
theorem QueryId.splits : Splits ofString (fun id => IsIdText id.toList) IsBreak := by
  intro a b x y ha hb hx hy h
  obtain ⟨hab, hxy⟩ := splits_solid _ _ x y (no_blank ha) (no_blank hb) hx hy h
  exact ⟨ofString_injective hab, hxy⟩

/-- Ids with plus signs between them can be told from a rest that starts with a blank, but not with a plus sign. -/
theorem QueryId.splits_joined (Rest : Text → Prop) (hbreak : ∀ x, Rest x → IsBreak x)
    (hplus : ∀ x, Rest x → ¬ ofString " + " <+: x) :
    Splits (fun ids : List String => ofString (" + ".intercalate ids))
      (fun ids => ids ≠ [] ∧ ∀ id ∈ ids, IsIdText id.toList) Rest := by
  have hids : Splits ofString (fun id => IsIdText id.toList) (fun x => Rest x ∨ ofString " + " <+: x) := by
    refine splits.mono (fun x hx => ?_)
    rcases hx with hx | ⟨z, rfl⟩
    · exact hbreak x hx
    · simp [IsBreak, ofString]
  simpa only [ofString_intercalate] using hids.separated hplus

/-! ### Sets -/

/-- Both purposes are absent, or both are given and shown as the same text. -/
def SamePurpose (v w : Value) : Prop :=
  (v = .null ∧ w = .null) ∨ (v ≠ .null ∧ w ≠ .null ∧ v.plain = w.plain)

/-- What the line of a set says after its options: nothing, or the purpose behind its mark. -/
def purposePart : Value → Text
  | .null => []
  | purpose => ofString "  # " ++ purpose.plain

theorem purposePart_of_ne_null {v : Value} (h : v ≠ .null) : purposePart v = ofString "  # " ++ v.plain := by
  unfold purposePart
  split
  · exact absurd rfl h
  · rfl

theorem purposePart_eq_iff {v w : Value} : purposePart v = purposePart w ↔ SamePurpose v w := by
  by_cases hv : v = .null <;> by_cases hw : w = .null
  · simp [hv, hw, SamePurpose]
  · simp [hv, hw, SamePurpose, purposePart, ofString]
  · simp [hv, hw, SamePurpose, purposePart, ofString]
  · rw [purposePart_of_ne_null hv, purposePart_of_ne_null hw, List.append_cancel_left_eq]
    simp [hv, hw, SamePurpose]

/-- The end of a line: nothing, or something behind the mark of a purpose. -/
def IsLineEnd (t : Text) : Prop := t = [] ∨ ofString "  # " <+: t

theorem isLineEnd_purposePart (v : Value) : IsLineEnd (purposePart v) := by
  by_cases hv : v = .null
  · exact Or.inl (by rw [hv]; rfl)
  · exact Or.inr ⟨v.plain, (purposePart_of_ne_null hv).symm⟩

/-- An option can be told from the end of the line, and from a bar. -/
theorem Combination.splits :
    Splits (fun o : Combination => ofString o.text) (fun o => ∀ id ∈ o.ids, IsIdText id.toList)
      (fun x => IsLineEnd x ∨ ofString " | " <+: x) := by
  have hids := QueryId.splits_joined (fun x => IsLineEnd x ∨ ofString " | " <+: x) ?_ ?_
  · intro o p x y ho hp hx hy h
    obtain ⟨hop, hxy⟩ := hids o.ids p.ids x y ⟨o.ids_ne, ho⟩ ⟨p.ids_ne, hp⟩ hx hy h
    exact ⟨Combination.ext hop, hxy⟩
  · rintro x ((rfl | ⟨z, rfl⟩) | ⟨z, rfl⟩) <;> simp [IsBreak, ofString]
  · rintro x ((rfl | ⟨z, rfl⟩) | ⟨z, rfl⟩) ⟨w, hw⟩ <;> simp [ofString] at hw

namespace CredentialSet

variable {s t : CredentialSet}

/-- The options of a set can be told from the end of the line. -/
theorem splits_options :
    Splits (fun options : List Combination => ofString (" | ".intercalate (options.map Combination.text)))
      (fun options => options ≠ [] ∧ ∀ o ∈ options, ∀ id ∈ o.ids, IsIdText id.toList) IsLineEnd := by
  have hbar : ∀ x, IsLineEnd x → ¬ ofString " | " <+: x := by
    rintro x (rfl | ⟨z, rfl⟩) ⟨w, hw⟩ <;> simp [ofString] at hw
  simpa only [ofString_intercalate, List.map_map, Function.comp_def] using Combination.splits.separated hbar

/-- What the line of a set says of its flag. -/
def flagPart (s : CredentialSet) : Text := if s.required then "required): " else "optional): "

theorem summary_eq (s : CredentialSet) (i : Nat) : s.summary i =
    ofString ("set " ++ Nat.repr i ++ " (") ++ (s.flagPart ++
      (ofString (" | ".intercalate (s.options.map Combination.text)) ++ purposePart s.purpose)) := by
  show ofString _ ++ purposePart s.purpose = _
  unfold flagPart
  cases s.required <;> simp [ofString]

theorem flagPart_append_eq_iff {x y : Text} :
    s.flagPart ++ x = t.flagPart ++ y ↔ s.required = t.required ∧ x = y := by
  unfold flagPart
  cases s.required <;> cases t.required <;> simp [ofString]

/-- The same flag, the same options in the same order, and the same purpose as far as it is shown. -/
structure Alike (s t : CredentialSet) : Prop where
  required : s.required = t.required
  options : s.options = t.options
  purpose : SamePurpose s.purpose t.purpose

/-- Two sets whose options name ids have one line exactly when they are alike. -/
theorem summary_eq_iff (hs : ∀ o ∈ s.options, ∀ id ∈ o.ids, IsIdText id.toList)
    (ht : ∀ o ∈ t.options, ∀ id ∈ o.ids, IsIdText id.toList) (i : Nat) : s.summary i = t.summary i ↔ s.Alike t := by
  rw [summary_eq, summary_eq, List.append_cancel_left_eq, flagPart_append_eq_iff]
  constructor
  · rintro ⟨hrequired, h⟩
    obtain ⟨hoptions, hpurpose⟩ := splits_options _ _ _ _ ⟨s.options_ne, hs⟩ ⟨t.options_ne, ht⟩
      (isLineEnd_purposePart _) (isLineEnd_purposePart _) h
    exact ⟨hrequired, hoptions, purposePart_eq_iff.1 hpurpose⟩
  · rintro ⟨hrequired, hoptions, hpurpose⟩
    rw [hoptions, purposePart_eq_iff.2 hpurpose]
    exact ⟨hrequired, rfl⟩

/-- The lines of several sets, numbered from `n` on. -/
theorem map_summary_eq_iff {ss ts : List CredentialSet} (hs : ∀ s ∈ ss, ∀ o ∈ s.options, ∀ id ∈ o.ids, IsIdText id.toList)
    (ht : ∀ t ∈ ts, ∀ o ∈ t.options, ∀ id ∈ o.ids, IsIdText id.toList) (n : Nat) :
    (ss.zipIdx n).map (fun e => e.1.summary e.2) = (ts.zipIdx n).map (fun e => e.1.summary e.2) ↔
      List.Forall₂ Alike ss ts := by
  induction ss generalizing ts n with
  | nil => cases ts <;> simp
  | cons s ss ih =>
    cases ts with
    | nil => simp
    | cons t ts =>
      obtain ⟨hs, hss⟩ := List.forall_mem_cons.1 hs
      obtain ⟨ht, hts⟩ := List.forall_mem_cons.1 ht
      rw [List.zipIdx_cons, List.zipIdx_cons, List.map_cons, List.map_cons, List.cons.injEq, List.forall₂_cons,
        summary_eq_iff hs ht n, ih hss hts (n + 1)]

end CredentialSet

/-! ### Requests -/

namespace Request

variable {r a b : Request} {ss : List CredentialSet}

theorem summary_of_none (h : r.grouping = none) :
    r.summary = [ofString "all required: " ++ ofString (" + ".intercalate r.catalogue.ids)] := by
  rw [summary, h, ← ofString_append]

theorem summary_of_ne_nil (h : r.grouping = some ss) (hne : ss ≠ []) :
    r.summary = ss.zipIdx.map (fun e => e.1.summary e.2) := by
  obtain ⟨s, rest, rfl⟩ := List.exists_cons_of_ne_nil hne
  rw [summary, h]

/-- The first letter of a summary: of the words for no grouping, for no set, or for the first set. -/
def initial : Grouping → Char
  | none => 'a'
  | some [] => 'e'
  | some (_ :: _) => 's'

theorem head?_summary (r : Request) : r.summary.head?.bind List.head? = some (.char (initial r.grouping)) := by
  rcases hg : r.grouping with _ | (_ | ⟨s, rest⟩)
  · simp [summary, hg, initial, ofString]
  · simp [summary, hg, initial, ofString]
  · simp [summary, hg, initial, CredentialSet.summary_eq, ofString]

/-- Without grouping the summary tells the ids of the catalogue, in order. -/
theorem ids_of_summary_eq (ha : a.Regular) (hb : b.Regular) (hga : a.grouping = none) (hgb : b.grouping = none)
    (h : a.summary = b.summary) : a.catalogue.ids = b.catalogue.ids := by
  have hids : ∀ {r : Request}, r.Regular → r.catalogue.ids ≠ [] ∧ ∀ id ∈ r.catalogue.ids, IsIdText id.toList := by
    intro r hr
    refine ⟨by simpa [Catalogue.ids] using hr.entries_ne, fun id hid => ?_⟩
    obtain ⟨q, hq, rfl⟩ := List.mem_map.1 hid
    exact (hr.queries q hq).id
  have hsplits := QueryId.splits_joined (fun x => x = []) (by simp [IsBreak]) (by simp [ofString])
  rw [summary_of_none hga, summary_of_none hgb, List.cons.injEq, List.append_cancel_left_eq] at h
  exact (hsplits _ _ [] [] (hids ha) (hids hb) rfl rfl (by simpa using h.1)).1

/-- **A summary is unambiguous.**  Two requests that were read have one summary exactly when neither has a grouping and
their catalogues list the same ids in the same order, or both have a grouping without sets, or they have the same number
of sets and set by set the same flag, the same options in the same order, and either no purpose or purposes with the same
text.  There is one line for each set, in order, and it starts with the number of the set, from 0 on. -/
theorem summary_unambiguous (v w : Value) (a b : Request) (ha : ofValue v = .ok a) (hb : ofValue w = .ok b) :
    (a.summary = b.summary ↔
      (a.grouping = none ∧ b.grouping = none ∧ a.catalogue.ids = b.catalogue.ids) ∨
      (a.grouping = some [] ∧ b.grouping = some []) ∨
      ∃ ss ts, a.grouping = some ss ∧ b.grouping = some ts ∧ ss ≠ [] ∧ List.Forall₂ CredentialSet.Alike ss ts) ∧
    ∀ ss, a.grouping = some ss → ss ≠ [] → a.summary.length = ss.length ∧
      ∀ i s, ss[i]? = some s →
        a.summary[i]? = some (s.summary i) ∧ ofString ("set " ++ Nat.repr i ++ " (") <+: s.summary i := by
  have hra : a.Regular := regular_of_denotes (ofValue_eq_ok_iff.1 ha)
  have hrb : b.Regular := regular_of_denotes (ofValue_eq_ok_iff.1 hb)
  have hsets : ∀ ss ts, a.grouping = some ss → b.grouping = some ts → ss ≠ [] → ts ≠ [] →
      (a.summary = b.summary ↔ List.Forall₂ CredentialSet.Alike ss ts) := by
    intro ss ts hss hts hne hne'
    rw [summary_of_ne_nil hss hne, summary_of_ne_nil hts hne']
    exact CredentialSet.map_summary_eq_iff (isIdText_of_mem_option hra hss) (isIdText_of_mem_option hrb hts) 0
  refine ⟨⟨fun h => ?_, ?_⟩, fun ss hss hne => ⟨?_, fun i s hs => ⟨?_, ?_⟩⟩⟩
  · have hinitial : initial a.grouping = initial b.grouping := by
      have hheads := congrArg (fun lines => lines.head?.bind List.head?) h
      simpa [head?_summary] using hheads
    -- different kinds of summaries start with different letters
    rcases hga : a.grouping with _ | (_ | ⟨s, ss⟩) <;> rcases hgb : b.grouping with _ | (_ | ⟨t, ts⟩) <;>
      simp [hga, hgb, initial] at hinitial
    · exact Or.inl ⟨rfl, rfl, ids_of_summary_eq hra hrb hga hgb h⟩
    · exact Or.inr (Or.inl ⟨rfl, rfl⟩)
    · exact Or.inr (Or.inr ⟨_, _, rfl, rfl, by simp, (hsets _ _ hga hgb (by simp) (by simp)).1 h⟩)
  · rintro (⟨hga, hgb, hids⟩ | ⟨hga, hgb⟩ | ⟨ss, ts, hss, hts, hne, hall⟩)
    · rw [summary_of_none hga, summary_of_none hgb, hids]
    · rw [summary, summary, hga, hgb]
    · exact (hsets ss ts hss hts hne ((ne_nil_iff_of_forall₂ hall).1 hne)).2 hall
  · rw [summary_of_ne_nil hss hne, List.length_map, List.length_zipIdx]
  · rw [summary_of_ne_nil hss hne]
    simp [hs]
  · rw [CredentialSet.summary_eq]
    exact List.prefix_append _ _

/-- A request for one credential of two kinds, with a purpose. -/
def pricedData (purpose : Value) : Value :=
  .object
    [(.text "credentials", .list
      [.object [(.text "id", .text "card"), (.text "format", .text "f")],
       .object [(.text "id", .text "pid\n"), (.text "format", .text "f")]]),
     (.text "credential_sets", .list
      [.object
        [(.text "options", .list [.list [.text "card", .text "pid\n"], .list [.text "pid\n"]]),
         (.text "purpose", purpose)]])]

/-- The request in `pricedData`. -/
def pricedRequest (purpose : Value) : Request where
  catalogue := ⟨[{ id := "card", format := "f" }, { id := "pid\n", format := "f" }], by decide⟩
  grouping := some [⟨[⟨["card", "pid\n"], by simp⟩, ⟨["pid\n"], by simp⟩], by simp, true, purpose⟩]
  references_known := rfl

/-- A number and the text of the number are different purposes with one text. -/
theorem summary_unambiguous_numeral :
    ofValue (pricedData (.int 5)) = .ok (pricedRequest (.int 5)) ∧
      ofValue (pricedData (.text "5")) = .ok (pricedRequest (.text "5")) ∧
      (pricedRequest (.int 5)).summary = (pricedRequest (.text "5")).summary ∧
      SamePurpose (.int 5) (.text "5") := by
  have ha : ofValue (pricedData (.int 5)) = .ok (pricedRequest (.int 5)) := rfl
  have hb : ofValue (pricedData (.text "5")) = .ok (pricedRequest (.text "5")) := rfl
  have h : (pricedRequest (.int 5)).summary = (pricedRequest (.text "5")).summary := by
    rw [summary_of_ne_nil rfl (List.cons_ne_nil _ _), summary_of_ne_nil rfl (List.cons_ne_nil _ _)]
    rfl
  refine ⟨ha, hb, h, ?_⟩
  rcases (summary_unambiguous _ _ _ _ ha hb).1.1 h with ⟨hnone, -⟩ | ⟨hnil, -⟩ | ⟨ss, ts, hss, hts, -, hall⟩
  · cases hnone
  · cases hnil
  · obtain rfl := Option.some.inj hss
    obtain rfl := Option.some.inj hts
    exact (List.forall₂_cons.1 hall).1.purpose

end Request

end Disclosure
