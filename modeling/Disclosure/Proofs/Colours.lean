import Disclosure.Proofs.Table
import Mathlib.Data.List.Basic

/-!
# Disclosure.Proofs.Colours — colours that come off again

A coloured line is the plain line with codes put around parts of it.  Each code is a control sequence, so taking out the
control sequences gives the plain line back, as long as its text does not hold the escape character that they begin with.

* `Coloured`: a text with codes put into it.
* `Line.coloured_render`, `Line.coloured_renderAll`: what is printed in colours is what is printed without, coloured.
* `Coloured.withoutControls`: how the colours come off.
-/

namespace Disclosure

/-! ### Control sequences -/

namespace Text

/-- A text in which no control sequence can begin. -/
def NoEscape (t : Text) : Prop := CodePoint.char '\x1b' ∉ t

variable {s t : Text}

theorem noEscape_append : NoEscape (s ++ t) ↔ NoEscape s ∧ NoEscape t := by
  simp [NoEscape]

theorem noEscape_flatMap {α : Type} {f : α → Text} {as : List α} :
    NoEscape (as.flatMap f) ↔ ∀ a ∈ as, NoEscape (f a) := by
  simp [NoEscape]

theorem withoutControls_append (h : NoEscape s) (t : Text) :
    (s ++ t).withoutControls = s ++ t.withoutControls := by
  unfold withoutControls
  induction s with
  | nil => rfl
  | cons p rest ih =>
    obtain ⟨hp, hrest⟩ := not_or.1 (fun hmem => h (List.mem_cons.2 hmem))
    rw [List.cons_append, dropControls, controlLength_of_ne (Ne.symm hp)]
    exact congrArg (p :: ·) (ih hrest)

/-- What is to be skipped is skipped, and nothing else. -/
theorem dropControls_append (s t : Text) : dropControls s.length (s ++ t) = dropControls 0 t := by
  induction s with
  | nil => rfl
  | cons p rest ih => exact ih

/-- An opening, parameters and the letter `m` are a control sequence. -/
theorem controlLength_of_parameters {parameters : Text} (h : ∀ p ∈ parameters, isWithin 0x30 0x3f p = true)
    (rest : Text) :
    controlLength (.char '\x1b' :: .char '[' :: (parameters ++ .char 'm' :: rest)) = parameters.length + 3 := by
  have htake : (parameters ++ .char 'm' :: rest).takeWhile (isWithin 0x30 0x3f) = parameters := by
    rw [List.takeWhile_append_of_pos h, List.takeWhile_cons_of_neg (by decide), List.append_nil]
  have hmarks : (CodePoint.char 'm' :: rest).takeWhile (isWithin 0x20 0x2f) = [] :=
    List.takeWhile_cons_of_neg (by decide)
  have hfinal : (CodePoint.char 'm' :: rest).head?.any (isWithin 0x40 0x7e) = true := by
    rw [List.head?_cons]
    decide
  unfold controlLength
  simp only [htake, List.drop_left, hmarks, List.length_nil, Nat.add_zero, hfinal, if_true]

end Text

/-! ### Codes -/

/-- A code that changes the style: an opening, digits, and the letter `m`. -/
def IsCode (code : String) : Prop :=
  ∃ digits : List Char, digits.all (fun d => Text.isWithin 0x30 0x3f (.char d)) = true ∧
    code.toList = '\x1b' :: '[' :: (digits ++ ['m'])

theorem isCode_reset : IsCode resetCode := ⟨['0'], by decide, by decide⟩

theorem Style.isCode {style : Style} {code : String} (h : style.code? = some code) : IsCode code := by
  cases style with
  | plain => simp [Style.code?] at h
  | bold => cases h; exact ⟨['1'], by decide, by decide⟩
  | dim => cases h; exact ⟨['2'], by decide, by decide⟩
  | green => cases h; exact ⟨['9', '2'], by decide, by decide⟩
  | yellow => cases h; exact ⟨['9', '3'], by decide, by decide⟩
  | cyan => cases h; exact ⟨['9', '6'], by decide, by decide⟩

theorem IsCode.withoutControls {code : String} (h : IsCode code) (t : Text) :
    (Text.ofString code ++ t).withoutControls = t.withoutControls := by
  obtain ⟨digits, hdigits, hcode⟩ := h
  have hparameters : ∀ p ∈ digits.map CodePoint.char, Text.isWithin 0x30 0x3f p = true := by
    simpa using hdigits
  have hlist : Text.ofString code ++ t
      = .char '\x1b' :: .char '[' :: (digits.map .char ++ .char 'm' :: t) := by
    simp [Text.ofString, hcode]
  -- the escape character is dropped, and as many code points behind it as the sequence is longer
  have hskip : Text.dropControls (digits.length + 2) (.char '[' :: (digits.map .char ++ .char 'm' :: t))
      = Text.dropControls 0 t := by
    have happend := Text.dropControls_append (.char '[' :: (digits.map .char ++ [.char 'm'])) t
    simpa using happend
  rw [hlist, Text.withoutControls, Text.dropControls, Text.controlLength_of_parameters hparameters, List.length_map]
  exact hskip

/-! ### Coloured texts -/

/-- `shown` is `plain` with codes put into it: before a part the code of a style, behind it the one that switches all
styles off. -/
inductive Coloured : Text → Text → Prop
  | nil : Coloured [] []
  | bare (t : Text) {plain shown : Text} : Coloured plain shown → Coloured (t ++ plain) (t ++ shown)
  | styled {style : Style} {code : String} (h : style.code? = some code) (t : Text) {plain shown : Text} :
      Coloured plain shown →
      Coloured (t ++ plain) (Text.ofString code ++ t ++ Text.ofString resetCode ++ shown)

namespace Coloured

variable {plain shown plain' shown' : Text}

theorem append (h : Coloured plain shown) (h' : Coloured plain' shown') :
    Coloured (plain ++ plain') (shown ++ shown') := by
  induction h with
  | nil => exact h'
  | bare t _ ih =>
    rw [List.append_assoc, List.append_assoc]
    exact .bare t ih
  | styled hcode t _ ih =>
    rw [List.append_assoc, List.append_assoc]
    exact .styled hcode t ih

theorem of_text (t : Text) : Coloured t t := by
  simpa using Coloured.nil.bare t

theorem flatMap {α : Type} {f g : α → Text} (as : List α) (h : ∀ a, Coloured (f a) (g a)) :
    Coloured (as.flatMap f) (as.flatMap g) := by
  induction as with
  | nil => exact .nil
  | cons a rest ih => exact (h a).append ih

/-- The colours of a text come off with its control sequences. -/
theorem withoutControls (h : Coloured plain shown) (hplain : plain.NoEscape) : shown.withoutControls = plain := by
  induction h with
  | nil => rfl
  | bare t _ ih =>
    obtain ⟨ht, hrest⟩ := Text.noEscape_append.1 hplain
    rw [Text.withoutControls_append ht, ih hrest]
  | styled hcode t _ ih =>
    obtain ⟨ht, hrest⟩ := Text.noEscape_append.1 hplain
    rw [List.append_assoc, List.append_assoc, (Style.isCode hcode).withoutControls, Text.withoutControls_append ht,
      isCode_reset.withoutControls, ih hrest]

end Coloured

theorem Span.coloured_render (colour : Bool) (s : Span) : Coloured s.text (s.render colour) := by
  unfold Span.render
  split
  · rename_i code _ hcode
    simpa using Coloured.nil.styled hcode s.text
  · exact .of_text s.text

namespace Line

theorem coloured_render (colour : Bool) (line : Line) : Coloured (line.render false) (line.render colour) :=
  Coloured.flatMap line (Span.coloured_render colour)

theorem coloured_renderAll (colour : Bool) (lines : List Line) :
    Coloured (renderAll false lines) (renderAll colour lines) :=
  Coloured.flatMap lines (fun line => (line.coloured_render colour).append (.of_text _))

theorem isPrintable_render {line : Line} (h : line.isPrintable = true) (colour : Bool) :
    (line.render colour).isPrintable = true := by
  have hspan : ∀ s ∈ line, (s.render colour).isPrintable = true := by
    intro s hs
    have htext : s.text.isPrintable = true := List.all_eq_true.1 h s hs
    unfold Span.render
    split <;> simp [Text.isPrintable_append, htext]
  simpa [Text.isPrintable, Line.render, List.all_flatMap] using hspan

theorem isPrintable_renderAll {lines : List Line} (h : lines.all isPrintable = true) (colour : Bool) :
    (renderAll colour lines).isPrintable = true := by
  have hline : ∀ line ∈ lines, (line.render colour ++ Text.ofString "\n").isPrintable = true := by
    intro line hline
    rw [Text.isPrintable_append, isPrintable_render (List.all_eq_true.1 h line hline), Text.isPrintable_ofString]
    rfl
  simpa [Text.isPrintable, Line.renderAll, List.all_flatMap] using hline

end Line

end Disclosure
