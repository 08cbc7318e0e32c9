import Mathlib.Data.List.Basic
import Mathlib.Data.List.Induction
import Mathlib.Data.List.TakeWhile
import Mathlib.Data.Nat.Digits.Defs

/-!
# Text of shell scripts

Texts are lists of characters. Numbers are written in decimal and read back
(`readNat_decimal`), a text is cut at the first occurrence of a character
(`cutAt_append`), a file is written and read line by line (`lines_unlines`), and
a list that a loop joins with a separator is taken apart again by splitting
(`splitOn_joined`).
-/

/-- The text of a shell variable, a line or a file. -/
abbrev Text : Type := List Char

namespace Text

/-! ## Numbers -/

/-- A number as the shell prints it. -/
def decimal (n : ℕ) : Text := Nat.toDigits 10 n

/-- A number as a configuration reader reads it: digits and nothing else. -/
def readNat (text : Text) : Option ℕ :=
  if text ≠ [] ∧ text.all Char.isDigit then some (Nat.ofDigitChars 10 text 0) else none

theorem decimal_ne_nil (n : ℕ) : decimal n ≠ [] := Nat.toDigits_ne_nil

theorem isDigit_of_mem_decimal {n : ℕ} {c : Char} (h : c ∈ decimal n) : c.isDigit :=
  Nat.isDigit_of_mem_toDigits (by decide) (by decide) h

/-- A numeral has nothing but digits in it. -/
theorem notMem_decimal {n : ℕ} {c : Char} (h : c.isDigit = false) : c ∉ decimal n := by
  intro hc
  rw [isDigit_of_mem_decimal hc] at h
  cases h

/-- A numeral is read back as its number. -/
@[simp]
theorem readNat_decimal (n : ℕ) : readNat (decimal n) = some n := by
  have hdigits : (decimal n).all Char.isDigit = true :=
    List.all_eq_true.mpr fun c hc => isDigit_of_mem_decimal hc
  rw [readNat, if_pos ⟨decimal_ne_nil n, hdigits⟩, decimal, Nat.ofDigitChars_ten_toDigits]

/-- Different numbers have different numerals. -/
theorem decimal_injective : Function.Injective decimal := by
  intro n m h
  have := congrArg readNat h
  simpa using this

/-! ## Runs of characters -/

/-- A run does not go on past a character that is not in its class. -/
theorem takeWhile_append_stop {p : Char → Bool} {c : Char} (hc : p c = false) (xs ys : Text) :
    (xs ++ c :: ys).takeWhile p = xs.takeWhile p := by
  induction xs with
  | nil => simp [hc]
  | cons x xs ih => by_cases hx : p x = true <;> simp [hx, ih]

/-- Dropping stops at a character that is not dropped. -/
theorem dropWhile_append_stop {p : Char → Bool} {c : Char} (hc : p c = false) (xs ys : Text) :
    (xs ++ c :: ys).dropWhile p = xs.dropWhile p ++ c :: ys := by
  induction xs with
  | nil => simp [hc]
  | cons x xs ih => by_cases hx : p x = true <;> simp [hx, ih]

/-- A word without the character is a prefix before it or not at all. -/
theorem isPrefixOf_append_stop {c : Char} {word : Text} (hc : c ∉ word) (xs ys : Text) :
    word.isPrefixOf (xs ++ c :: ys) = word.isPrefixOf xs := by
  induction word generalizing xs with
  | nil => simp
  | cons x word ih =>
    obtain ⟨hx, hword⟩ := not_or.mp (mt List.mem_cons.mpr hc)
    cases xs with
    | nil => simp [List.isPrefixOf, Ne.symm hx]
    | cons y xs => simp [List.isPrefixOf, ih hword]

/-! ## Cutting at a character -/

/-- The text before the first `c`, and the text after it (nothing without a `c`). -/
def cutAt (c : Char) (text : Text) : Text × Text :=
  (text.takeWhile (· ≠ c), (text.dropWhile (· ≠ c)).drop 1)

/-- A text is cut at the first of the characters. -/
theorem cutAt_append {c : Char} {before : Text} (h : c ∉ before) (rest : Text) :
    cutAt c (before ++ c :: rest) = (before, rest) := by
  have hall : ∀ a ∈ before, decide (a ≠ c) = true := by
    intro a ha
    rw [decide_eq_true_eq]
    rintro rfl
    exact h ha
  rw [cutAt, List.takeWhile_append_of_pos hall, List.dropWhile_append_of_pos hall]
  simp

/-- The two parts of a text with a `c`. -/
theorem append_cutAt {c : Char} {text : Text} (h : c ∈ text) :
    (cutAt c text).1 ++ c :: (cutAt c text).2 = text := by
  induction text with
  | nil => cases h
  | cons x text ih =>
    by_cases hx : x = c
    · subst hx
      simp [cutAt]
    · have htext := ih ((List.mem_cons.mp h).resolve_left (Ne.symm hx))
      rw [cutAt] at htext ⊢
      rw [List.takeWhile_cons_of_pos (by simpa using hx),
        List.dropWhile_cons_of_pos (by simpa using hx), List.cons_append, htext]

/-- A text without the character is not cut. -/
theorem cutAt_of_notMem {c : Char} {text : Text} (h : c ∉ text) : cutAt c text = (text, []) := by
  have hall : ∀ a ∈ text, decide (a ≠ c) = true := by
    intro a ha
    rw [decide_eq_true_eq]
    rintro rfl
    exact h ha
  rw [cutAt, List.takeWhile_eq_self_iff.mpr hall, List.dropWhile_eq_nil_iff.mpr hall]
  rfl

theorem notMem_cutAt (c : Char) (text : Text) : c ∉ (cutAt c text).1 := by
  intro hc
  have := List.mem_takeWhile_imp hc
  simp at this

/-- The text before the last `c`, as a greedy pattern finds it; without a `c` the whole text. -/
def beforeLast (c : Char) : Text → Text
  | [] => []
  | x :: text => if x = c ∧ c ∉ text then [] else x :: beforeLast c text

/-- What is before the last of the characters. -/
theorem beforeLast_append {c : Char} {rest : Text} (h : c ∉ rest) (before : Text) :
    beforeLast c (before ++ c :: rest) = before := by
  induction before with
  | nil => rw [List.nil_append, beforeLast, if_pos ⟨rfl, h⟩]
  | cons x before ih =>
    rw [List.cons_append, beforeLast, if_neg (fun hx => hx.2 (by simp)), ih]

/-- A greedy pattern takes along every `c` but the last. -/
theorem mem_beforeLast {c : Char} {rest : Text} (h : c ∈ rest) (before : Text) :
    c ∈ beforeLast c (before ++ c :: rest) := by
  induction before with
  | nil =>
    rw [List.nil_append, beforeLast, if_neg (fun hx => hx.2 h)]
    exact List.mem_cons_self
  | cons x before ih =>
    rw [List.cons_append, beforeLast, if_neg (fun hx => hx.2 (by simp))]
    exact List.mem_cons_of_mem x ih

/-- Splitting takes off what stands before the first separator. -/
theorem splitOn_append_cons {c : Char} {before : Text} (h : c ∉ before) (rest : Text) :
    (before ++ c :: rest).splitOn c = before :: rest.splitOn c := by
  induction before with
  | nil => rw [List.nil_append, List.splitOn_cons_eq_if_modifyHead, if_pos (beq_self_eq_true _)]
  | cons x before ih =>
    rw [List.mem_cons, not_or] at h
    rw [List.cons_append, List.splitOn_cons_eq_if_modifyHead, if_neg (by simpa using Ne.symm h.1),
      ih h.2, List.modifyHead_cons]

/-- A text without the separator is one piece. -/
theorem splitOn_of_notMem {c : Char} {text : Text} (h : c ∉ text) : text.splitOn c = [text] := by
  induction text with
  | nil => rfl
  | cons x text ih =>
    rw [List.mem_cons, not_or] at h
    rw [List.splitOn_cons_eq_if_modifyHead, if_neg (by simpa using Ne.symm h.1), ih h.2,
      List.modifyHead_cons]

/-- The parts of a split text do not have the separator. -/
theorem notMem_of_mem_splitOn {c : Char} {text part : Text} (h : part ∈ text.splitOn c) :
    c ∉ part := by
  induction text generalizing part with
  | nil =>
    rw [List.splitOn_nil, List.mem_singleton] at h
    subst h
    exact List.not_mem_nil
  | cons x text ih =>
    rw [List.splitOn_cons_eq_if_modifyHead] at h
    split at h
    · rcases List.mem_cons.mp h with rfl | h
      · exact List.not_mem_nil
      · exact ih h
    · rename_i hx
      rcases hsplit : text.splitOn c with - | ⟨first, rest⟩
      · exact absurd hsplit (List.splitOn_ne_nil c text)
      · rw [hsplit, List.modifyHead_cons] at h
        rcases List.mem_cons.mp h with rfl | h
        · have hfirst : c ∉ first := ih (by rw [hsplit]; exact List.mem_cons_self)
          rw [List.mem_cons, not_or]
          exact ⟨fun heq => hx (by rw [heq, beq_self_eq_true]), hfirst⟩
        · exact ih (by rw [hsplit]; exact List.mem_cons_of_mem first h)

/-- The parts of a split text are made of its characters. -/
theorem subset_of_mem_splitOn {c : Char} {text part : Text} (h : part ∈ text.splitOn c) :
    part ⊆ text := by
  induction text generalizing part with
  | nil =>
    rw [List.splitOn_nil, List.mem_singleton] at h
    exact h ▸ List.Subset.refl _
  | cons x text ih =>
    rw [List.splitOn_cons_eq_if_modifyHead] at h
    split at h
    · rcases List.mem_cons.mp h with rfl | h
      · exact List.nil_subset _
      · exact List.subset_cons_of_subset x (ih h)
    · rcases hsplit : text.splitOn c with - | ⟨first, rest⟩
      · exact absurd hsplit (List.splitOn_ne_nil c text)
      · rw [hsplit, List.modifyHead_cons] at h
        rcases List.mem_cons.mp h with rfl | h
        · exact List.cons_subset_cons x (ih (by rw [hsplit]; exact List.mem_cons_self))
        · exact List.subset_cons_of_subset x
            (ih (by rw [hsplit]; exact List.mem_cons_of_mem first h))

/-! ## Special characters -/

/-- None of the characters is in the text. -/
def Avoids (special : List Char) (text : Text) : Prop := ∀ c ∈ text, c ∉ special

instance (special : List Char) (text : Text) : Decidable (Avoids special text) :=
  List.decidableBAll _ text

/-- Texts that avoid some characters do so together. -/
theorem Avoids.append {special : List Char} {s t : Text} (hs : Avoids special s)
    (ht : Avoids special t) : Avoids special (s ++ t) := fun c hc =>
  (List.mem_append.mp hc).elim (hs c) (ht c)

/-- Who avoids many characters avoids fewer. -/
theorem Avoids.mono {special fewer : List Char} {text : Text} (h : Avoids special text)
    (hfewer : fewer ⊆ special) : Avoids fewer text := fun c hc hspecial =>
  h c hc (hfewer hspecial)

theorem Avoids.notMem {special : List Char} {text : Text} (h : Avoids special text) {c : Char}
    (hc : c ∈ special) : c ∉ text := fun htext => h c htext hc

/-! ## Lines of a file -/

/-- The lines of a file. The last one may lack its newline. -/
def lines (text : Text) : List Text :=
  if text = [] ∨ text.getLast? = some '\n' then (text.splitOn '\n').dropLast
  else text.splitOn '\n'

/-- The file with these lines. -/
def unlines (ls : List Text) : Text := ls.flatMap fun l => l ++ ['\n']

/-- A newline at the end adds an empty piece. -/
theorem splitOn_append_newline (text : Text) :
    (text ++ ['\n']).splitOn '\n' = text.splitOn '\n' ++ [[]] := by
  induction text with
  | nil => rfl
  | cons x text ih =>
    rw [List.cons_append, List.splitOn_cons_eq_if_modifyHead,
      List.splitOn_cons_eq_if_modifyHead, ih]
    split
    · rfl
    · rcases hsplit : text.splitOn '\n' with - | ⟨first, rest⟩
      · exact absurd hsplit (List.splitOn_ne_nil _ text)
      · rfl

/-- Adding a newline that is missing does not change the lines. -/
theorem lines_append_newline {text : Text} (hne : text ≠ []) (h : text.getLast? ≠ some '\n') :
    lines (text ++ ['\n']) = lines text := by
  have hlast : (text ++ ['\n']).getLast? = some '\n' := List.getLast?_concat ..
  rw [lines, if_pos (.inr hlast), splitOn_append_newline, List.dropLast_concat, lines,
    if_neg (not_or.mpr ⟨hne, h⟩)]

/-- Lines that are written are read back, with an empty piece at the end. -/
theorem splitOn_unlines {ls : List Text} (h : ∀ l ∈ ls, '\n' ∉ l) :
    (unlines ls).splitOn '\n' = ls ++ [[]] := by
  induction ls with
  | nil => rfl
  | cons l ls ih =>
    have hrest : unlines (l :: ls) = l ++ '\n' :: unlines ls := by
      rw [unlines, List.flatMap_cons, List.append_assoc]
      rfl
    rw [hrest, splitOn_append_cons (h l List.mem_cons_self),
      ih fun l' hl' => h l' (List.mem_cons_of_mem l hl'), List.cons_append]

/-- Writing lines and reading them. -/
theorem lines_unlines {ls : List Text} (h : ∀ l ∈ ls, '\n' ∉ l) : lines (unlines ls) = ls := by
  have hend : unlines ls = [] ∨ (unlines ls).getLast? = some '\n' := by
    induction ls using List.reverseRecOn with
    | nil => exact .inl rfl
    | append_singleton ls l _ =>
      right
      rw [unlines, List.flatMap_append, List.flatMap_singleton, ← List.append_assoc,
        List.getLast?_concat]
  rw [lines, if_pos hend, splitOn_unlines h, List.dropLast_concat]

/-- No line has a newline in it. -/
theorem notMem_of_mem_lines {text line : Text} (h : line ∈ lines text) : '\n' ∉ line := by
  unfold lines at h
  split at h
  · exact notMem_of_mem_splitOn (List.dropLast_subset _ h)
  · exact notMem_of_mem_splitOn h

/-! ## Joining with a separator -/

/-- One round of a loop that joins items: a separator first, unless the text so
far is empty. -/
def joinItem (c : Char) (joined item : Text) : Text :=
  (if joined ≠ [] then joined ++ [c] else joined) ++ item

/-- A loop that joins items. -/
def joined (c : Char) (items : List Text) : Text :=
  items.foldl (joinItem c) []

/-- A loop that joins items one by one adds the next one at the end. -/
theorem joined_concat (c : Char) (items : List Text) (item : Text) :
    joined c (items ++ [item]) = joinItem c (joined c items) item := by
  simp [joined, List.foldl_append]

theorem intercalate_cons_eq_append (c : Char) (item : Text) (items : List Text) :
    [c].intercalate (item :: items) = item ++ items.flatMap fun next => c :: next := by
  induction items generalizing item with
  | nil => simp [List.intercalate]
  | cons next items ih =>
    rw [List.intercalate_cons_cons, ih, List.flatMap_cons]
    simp

/-- The last item follows the separator. -/
theorem intercalate_concat (c : Char) {items : List Text} (h : items ≠ []) (item : Text) :
    [c].intercalate (items ++ [item]) = [c].intercalate items ++ c :: item := by
  induction items with
  | nil => exact absurd rfl h
  | cons first rest ih =>
    rcases rest with - | ⟨second, rest⟩
    · simp [List.intercalate]
    · have := ih (by simp)
      rw [List.cons_append, List.cons_append, List.intercalate_cons_cons, ← List.cons_append, this,
        List.intercalate_cons_cons]
      simp

/-- With items that are not empty, the loop's separators stand exactly between them. -/
theorem joined_eq_intercalate (c : Char) {items : List Text} (h : ∀ item ∈ items, item ≠ []) :
    joined c items = [c].intercalate items ∧ (items ≠ [] → joined c items ≠ []) := by
  induction items using List.reverseRecOn with
  | nil => exact ⟨rfl, fun h => absurd rfl h⟩
  | append_singleton items item ih =>
    obtain ⟨heq, hne⟩ := ih fun i hi => h i (List.mem_append_left _ hi)
    have hitem : item ≠ [] := h item (by simp)
    rw [joined_concat, joinItem]
    refine ⟨?_, fun _ hnil => hitem (List.append_eq_nil_iff.mp hnil).2⟩
    rcases items with - | ⟨first, rest⟩
    · simp [joined, List.intercalate]
    · rw [if_pos (hne (by simp)), intercalate_concat c (by simp), heq, List.append_assoc]
      rfl

/-- Splitting takes apart what the loop has joined. -/
theorem splitOn_joined {c : Char} {items : List Text} (hitems : items ≠ [])
    (hne : ∀ item ∈ items, item ≠ []) (hc : ∀ item ∈ items, c ∉ item) :
    (joined c items).splitOn c = items := by
  rw [(joined_eq_intercalate c hne).1, List.splitOn_intercalate c hc hitems]

end Text
