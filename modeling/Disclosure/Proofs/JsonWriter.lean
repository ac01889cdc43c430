import Disclosure.Proofs.JsonNumbers
import Mathlib.Algebra.Group.Nat.Defs
import Mathlib.Data.List.Perm.Basic

/-!
# Disclosure.Proofs.JsonWriter — JSON data are written as a JSON document

* `Text.natural?_hex`: four hexadecimal digits read back as their number.
* `Json.letter_json`: every code point is escaped as the format allows.
* `Value.exists_json_of_isJson`: JSON data can be written, and what is written is a document for them.
-/

namespace Disclosure

/-! ### Escapes -/

namespace Text

theorem hexValue?_digitChar {d : Nat} (h : d < 16) : hexValue? (Nat.digitChar d) = some d := by
  have hall : ∀ d : Fin 16, hexValue? (Nat.digitChar d.val) = some d.val := by decide
  exact hall ⟨d, h⟩

/-- Reading the last digits of a number after `m` gives `m` followed by them. -/
theorem foldlM_hex (width n m : Nat) :
    (hex width n).foldlM
      (fun n c => (hexValue? c).bind (fun d => if d < 16 then some (n * 16 + d) else none)) m
      = some (m * 16 ^ width + n % 16 ^ width) := by
  induction width generalizing n with
  | zero => simp [hex, Nat.mod_one]
  | succ width ih =>
    have hd : n % 16 < 16 := Nat.mod_lt _ (by decide)
    rw [hex, List.foldlM_append, ih]
    simp only [Option.bind_eq_bind, Option.bind_some, List.foldlM_cons, List.foldlM_nil, hexValue?_digitChar hd,
      if_pos hd, Option.pure_def, Option.some.injEq]
    rw [Nat.pow_succ, Nat.mul_comm (16 ^ width) 16, Nat.mod_mul]
    rw [Nat.add_mul, Nat.mul_assoc, Nat.mul_comm (16 ^ width) 16]
    omega

theorem natural?_hex {n : Nat} (h : n < 0x10000) : natural? 16 (hex 4 n) = some n := by
  have hne : (hex 4 n).isEmpty = false := by
    rw [List.isEmpty_eq_false_iff, ← List.length_pos_iff, length_hex]
    decide
  rw [natural?, hne, if_neg (by decide), foldlM_hex]
  simp [Nat.mod_eq_of_lt h]

end Text

namespace Json

theorem unit_hex {n : Nat} (h : n < 0x10000) : Unit n (Text.hex 4 n) := ⟨Text.length_hex 4 n, Text.natural?_hex h⟩

theorem toNat_lt (c : Char) : c.toNat < 0x110000 := by
  have h : c.toNat < 0xd800 ∨ 0xdfff < c.toNat ∧ c.toNat < 0x110000 := c.valid
  omega

/-- A character outside the basic plane is the sum of its two surrogates. -/
theorem letter_paired {c : Char} {high low : Nat} (hhigh : high < 0x400) (hlow : low < 0x400)
    (hc : c.toNat = 0x10000 + high * 0x400 + low) :
    Letter (.char c) (Text.escaped (0xd800 + high) ++ Text.escaped (0xdc00 + low)) :=
  .paired (unit_hex (by omega)) (unit_hex (by omega)) hhigh hlow hc

theorem letter_json (p : CodePoint) : Letter p p.json := by
  cases p with
  | surrogate offset =>
    have hlt : 0xd800 + offset.val < 0x10000 := by omega
    exact Letter.numbered (unit_hex hlt)
  | char c =>
    have hmark : ∀ {mark d : Char}, c = d → (mark, d) ∈ marks → Letter (.char c) ['\\', mark] := by
      rintro mark d rfl hm
      exact .marked hm
    simp only [CodePoint.json]
    by_cases hquote : c = '"' ∨ c = '\\'
    · rw [if_pos (by simpa using hquote)]
      rcases hquote with rfl | rfl <;> exact .marked (by decide)
    rw [if_neg (by simpa using hquote)]
    rw [not_or] at hquote
    split
    · exact hmark (by assumption) (by decide)
    split
    · exact hmark (by assumption) (by decide)
    split
    · exact hmark (by assumption) (by decide)
    split
    · rename_i h
      exact hmark (Char.toNat_inj.1 h : c = '\x08') (by decide)
    split
    · rename_i h
      exact hmark (Char.toNat_inj.1 h : c = '\x0c') (by decide)
    split
    · rename_i h
      rw [Bool.and_eq_true, decide_eq_true_eq] at h
      exact .plain h.1 hquote.1 hquote.2
    split
    · rename_i h
      exact .numbered (unit_hex h)
    · have hc := toNat_lt c
      exact letter_paired (by omega) (by omega) (by omega)

theorem letters_json (t : Text) : Letters t (t.flatMap CodePoint.json) := by
  induction t with
  | nil => exact .nil
  | cons p rest ih => exact .cons (letter_json p) ih

theorem quoted_json (t : Text) : Quoted t (Text.json t).toList :=
  ⟨t.flatMap CodePoint.json, letters_json t, by rw [Text.json, String.toList_ofList]⟩

theorem exists_json_scalar {s : Scalar} (h : s.IsJson) : ∃ w, s.json = .ok w ∧ Atom s w.toList := by
  cases s with
  | null => exact ⟨_, rfl, .null⟩
  | bool b =>
    cases b with
    | false => exact ⟨_, rfl, .false⟩
    | true => exact ⟨_, rfl, .true⟩
  | int n =>
    have hshowable : (Scalar.int n).isShowable = true := h
    exact ⟨Int.repr n, by rw [Scalar.json, if_pos hshowable], .int n⟩
  | float x =>
    cases x with
    | finite value => exact ⟨_, rfl, atom_finite value _ _⟩
    | negativeZero => exact ⟨_, rfl, atom_negativeZero _ _⟩
    | infinite negative => exact h.elim
    | nan => exact h.elim
  | text t => exact ⟨_, rfl, .text (quoted_json t)⟩
  | undefined origin => exact h.elim
  | bytes b => exact h.elim
  | date d => exact h.elim
  | moment m => exact h.elim

/-! ### Lines between brackets -/

/-- Lines that start with one margin, with commas between them and blanks after the last. -/
theorem joined_intercalate {margin after : List Char} (hmargin : Blanks margin) (hafter : Blanks after)
    (line : List Char) (rest : List (List Char)) :
    Joined (line :: rest) (margin ++ (',' :: margin).intercalate (line :: rest) ++ after) := by
  induction rest generalizing line with
  | nil =>
    rw [List.intercalate_singleton]
    exact .last hmargin hafter
  | cons next rest ih =>
    have hnil : Blanks [] := by simp [Blanks]
    have h : Joined (line :: next :: rest) _ := .more hmargin hnil (ih next)
    simpa [List.intercalate_cons_cons] using h

/-- The lines of a block stand between its brackets. -/
theorem exists_joined_jsonBlock (depth : Nat) (left right : String) (lines : List String) :
    ∃ cs, (Value.jsonBlock depth left right lines).toList = left.toList ++ cs ++ right.toList ∧
      Joined (lines.map String.toList) cs := by
  have hblanks : ∀ n, Blanks ('\n' :: List.replicate n ' ') := by
    intro n c hc
    rcases List.mem_cons.1 hc with rfl | hc
    · simp
    · exact Or.inl (List.eq_of_mem_replicate hc)
  cases lines with
  | nil => exact ⟨[], by simp [Value.jsonBlock], .none (by simp [Blanks])⟩
  | cons line rest =>
    refine ⟨_, ?_, joined_intercalate (hblanks (2 * (depth + 1))) (hblanks (2 * depth)) line.toList
      (rest.map String.toList)⟩
    simp [Value.jsonBlock, String.toList_intercalate]

end Json

/-! ### Values -/

open Json

namespace Value

/-- An entry is a field whose name is a text and whose value has been written. -/
def Written (f : Scalar × Value) (e : Scalar × Except Unwritable String) : Prop :=
  e.1 = f.1 ∧ (∃ t, f.1 = .text t) ∧ ∃ s, e.2 = .ok s ∧ Spells f.2 s.toList

theorem exists_mapM_of_written {fields : List (Scalar × Value)} {entries : List (Scalar × Except Unwritable String)}
    (h : List.Forall₂ Written fields entries) :
    ∃ lines, entries.mapM (fun (name, line) => do return (← name.jsonName) ++ ": " ++ (← line)) = .ok lines ∧
      SpellsFields fields (lines.map String.toList) := by
  induction h with
  | nil => exact ⟨[], rfl, .nil⟩
  | @cons f e fields entries hwritten _ ih =>
    obtain ⟨name, v⟩ := f
    obtain ⟨_, _⟩ := e
    obtain ⟨rfl, ⟨t, rfl⟩, s, rfl, hs⟩ := hwritten
    obtain ⟨lines, hlines, hspells⟩ := ih
    refine ⟨(Text.json t ++ ": " ++ s) :: lines, ?_, ?_⟩
    · rw [List.mapM_cons, hlines]
      rfl
    · have hnil : Blanks [] := by simp [Blanks]
      have hblank : Blanks [' '] := by simp [Blanks]
      have h := SpellsFields.cons (quoted_json t) hnil hblank hs hspells
      simpa using h

/-- Fields that have been written are put in order by their names. -/
theorem exists_jsonLines {fields : List (Scalar × Value)} {entries : List (Scalar × Except Unwritable String)}
    (h : List.Forall₂ Written fields entries) :
    ∃ lines ordered, jsonLines entries = .ok lines ∧ ordered.Perm fields ∧
      SpellsFields ordered (lines.map String.toList) := by
  have htexts : entries.all (fun e => e.1.text?.isSome) = true := by
    induction h with
    | nil => rfl
    | cons hwritten _ ih =>
      obtain ⟨hname, ⟨t, ht⟩, -⟩ := hwritten
      rw [List.all_cons, ih, hname, ht]
      rfl
  have hperm := List.mergeSort_perm entries (fun a b => !b.1.before a.1)
  obtain ⟨ordered, hordered, hfields⟩ := List.perm_comp_forall₂ hperm h.flip
  obtain ⟨lines, hlines, hspells⟩ := exists_mapM_of_written hordered.flip
  refine ⟨lines, ordered, ?_, hfields, hspells⟩
  rw [jsonLines, sortByName?, if_pos htexts]
  exact hlines

/-- Of fields in any order the first one without a form is the reason against all of them, when no field has another
reason against it. -/
theorem mapM_eq_noForm {entries : List (Scalar × Except Unwritable String)} (hnames : ∀ e ∈ entries, ∃ t, e.1 = .text t)
    (hreasons : ∀ e ∈ entries, ∀ why, e.2 = .error why → why = .noForm) (hnone : ∃ e ∈ entries, e.2 = .error .noForm) :
    entries.mapM (fun (name, line) => do return (← name.jsonName) ++ ": " ++ (← line)) = .error .noForm := by
  induction entries with
  | nil => simp at hnone
  | cons e rest ih =>
    obtain ⟨name, line⟩ := e
    obtain ⟨t, rfl⟩ := hnames _ List.mem_cons_self
    rw [List.mapM_cons]
    cases line with
    | error why =>
      obtain rfl := hreasons _ List.mem_cons_self why rfl
      rfl
    | ok s =>
      have hrest : ∃ e ∈ rest, e.2 = .error .noForm := by simpa using hnone
      rw [ih (fun e he => hnames e (List.mem_cons_of_mem _ he)) (fun e he => hreasons e (List.mem_cons_of_mem _ he)) hrest]
      rfl

/-- An object with a field without a form has none, when no field has another reason against it. -/
theorem jsonAt_object_eq_noForm {depth : Nat} {around : List Nat} {fields : List (Scalar × Value)}
    (hnames : ∀ f ∈ fields, ∃ t, f.1 = .text t)
    (hreasons : ∀ f ∈ fields, ∀ why, jsonAt (depth + 1) around f.2 = .error why → why = .noForm)
    (hnone : ∃ f ∈ fields, jsonAt (depth + 1) around f.2 = .error .noForm) :
    jsonAt depth around (.object fields) = .error .noForm := by
  have hfields : jsonFields (depth + 1) around fields = fields.map (fun f => (f.1, jsonAt (depth + 1) around f.2)) := by
    clear hnames hreasons hnone
    induction fields with
    | nil => rfl
    | cons f rest ih => rw [jsonFields, ih, List.map_cons]
  have htexts : (jsonFields (depth + 1) around fields).all (fun e => e.1.text?.isSome) = true := by
    simp only [hfields, List.all_eq_true, List.forall_mem_map]
    intro f hf
    obtain ⟨t, ht⟩ := hnames f hf
    rw [ht]
    rfl
  have hsorted : jsonLines (jsonFields (depth + 1) around fields) = .error .noForm := by
    rw [jsonLines, sortByName?, if_pos htexts, hfields]
    refine mapM_eq_noForm ?_ ?_ ?_ <;> simp only [List.mem_mergeSort, List.forall_mem_map]
    · exact hnames
    · exact hreasons
    · obtain ⟨f, hf, hline⟩ := hnone
      exact ⟨_, List.mem_map_of_mem hf, hline⟩
  rw [jsonAt, hsorted]
  rfl

mutual

theorem exists_jsonAt (v : Value) (depth : Nat) (around : List Nat) (h : v.IsJson) :
    ∃ s, jsonAt depth around v = .ok s ∧ Spells v s.toList := by
  cases v with
  | scalar s =>
    obtain ⟨w, hw, hatom⟩ := exists_json_scalar h
    exact ⟨w, hw, .atom hatom⟩
  | list items =>
    obtain ⟨lines, hlines, hspells⟩ := exists_jsonItems items (depth + 1) around h
    obtain ⟨cs, hcs, hjoined⟩ := exists_joined_jsonBlock depth "[" "]" lines
    refine ⟨_, by rw [jsonAt, hlines]; rfl, ?_⟩
    rw [hcs]
    exact .list hspells hjoined
  | object fields =>
    obtain ⟨lines, ordered, hlines, hperm, hspells⟩ := exists_jsonLines (forall₂_jsonFields fields (depth + 1) around h)
    obtain ⟨cs, hcs, hjoined⟩ := exists_joined_jsonBlock depth "\x7b" "\x7d" lines
    refine ⟨_, by rw [jsonAt, hlines]; rfl, ?_⟩
    rw [hcs]
    exact .object hperm hspells hjoined
  | pair v w => exact h.elim
  | set members => exact h.elim
  | knot label v => exact h.elim
  | again label => exact h.elim

theorem exists_jsonItems (items : List Value) (depth : Nat) (around : List Nat) (h : AreJson items) :
    ∃ lines, jsonItems depth around items = .ok lines ∧ SpellsEach items (lines.map String.toList) := by
  cases items with
  | nil => exact ⟨[], rfl, .nil⟩
  | cons v rest =>
    obtain ⟨line, hline, hv⟩ := exists_jsonAt v depth around h.1
    obtain ⟨lines, hlines, hrest⟩ := exists_jsonItems rest depth around h.2
    exact ⟨line :: lines, by rw [jsonItems, hline, hlines]; rfl, .cons hv hrest⟩

theorem forall₂_jsonFields (fields : List (Scalar × Value)) (depth : Nat) (around : List Nat) (h : FieldsJson fields) :
    List.Forall₂ Written fields (jsonFields depth around fields) := by
  match fields, h with
  | [], _ => exact .nil
  | (name, v) :: rest, ⟨hname, hv, hrest⟩ =>
    exact .cons ⟨rfl, hname, exists_jsonAt v depth around hv⟩ (forall₂_jsonFields rest depth around hrest)

end

/-- **JSON data can be written, and what is written is a document for them.** -/
theorem exists_json_of_isJson {v : Value} (h : v.IsJson) : ∃ s, v.json = .ok s ∧ Spells v s.toList :=
  exists_jsonAt v 0 [] h

end Value

end Disclosure
