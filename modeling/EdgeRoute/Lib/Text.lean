import Mathlib.Data.List.DropRight
import Mathlib.Tactic.IntervalCases

/-!
# Text as the Rust standard library handles it

`trim`, `lines`, `split_whitespace`, `split_once`, `strip_prefix` and decimal
numerals, over lists of characters.

* `trim_trim`: trimming twice is trimming once.
* `lines_cons_line`: a line that ends in a newline is read back whole.
* `parseNat_toDigits`: a printed number is read back.
-/

namespace Text

/-- A property of all characters of a text is decided on these characters, not on all there are. -/
instance (priority := high) decidableForallMem {P : Char → Prop} [DecidablePred P] (cs : List Char) :
    Decidable (∀ c ∈ cs, P c) :=
  List.decidableBAll P cs

/-- Unicode `White_Space`, the class `str::trim` and `split_whitespace` use. -/
def isWhite (c : Char) : Bool :=
  (9 ≤ c.toNat && c.toNat ≤ 13) || c.toNat == 32 || c.toNat == 0x85 || c.toNat == 0xA0 ||
    c.toNat == 0x1680 || (0x2000 ≤ c.toNat && c.toNat ≤ 0x200A) || c.toNat == 0x2028 ||
    c.toNat == 0x2029 || c.toNat == 0x202F || c.toNat == 0x205F || c.toNat == 0x3000

/-- `str::trim` on characters. -/
def trimChars (cs : List Char) : List Char := (cs.dropWhile isWhite).rdropWhile isWhite

/-- `str::trim`. -/
def trim (s : String) : String := String.ofList (trimChars s.toList)

/-- `str::lines`, before the optional carriage return is taken off. -/
def splitLines : List Char → List (List Char)
  | [] => []
  | c :: cs =>
      if c = '\n' then [] :: splitLines cs
      else match splitLines cs with
        | [] => [[c]]
        | l :: ls => (c :: l) :: ls

/-- A line without its trailing carriage return. -/
def stripCr (l : List Char) : List Char := if l.getLast? = some '\r' then l.dropLast else l

/-- `str::lines`. -/
def lines (cs : List Char) : List (List Char) := (splitLines cs).map stripCr

/-- `split_whitespace().next()`. -/
def firstWord (cs : List Char) : Option (List Char) :=
  match (cs.dropWhile isWhite).takeWhile (fun c => !isWhite c) with
  | [] => none
  | w => some w

/-- `split_once` on one character. -/
def splitOnce (sep : Char) (cs : List Char) : Option (List Char × List Char) :=
  match cs.dropWhile (· ≠ sep) with
  | [] => none
  | _ :: rest => some (cs.takeWhile (· ≠ sep), rest)

/-- `strip_prefix`. -/
def stripPrefix (pre cs : List Char) : Option (List Char) :=
  if pre.isPrefixOf cs then some (cs.drop pre.length) else none

/-- A run of decimal digits. -/
def parseNat (cs : List Char) : Option ℕ :=
  if cs ≠ [] ∧ cs.all Char.isDigit then some (Nat.ofDigitChars 10 cs 0) else none

/-! ## Trimming -/

theorem dropWhile_rdropWhile_dropWhile {α : Type} (p : α → Bool) (l : List α) :
    ((l.dropWhile p).rdropWhile p).dropWhile p = (l.dropWhile p).rdropWhile p := by
  cases h : l.dropWhile p with
  | nil => rfl
  | cons x xs =>
    have hx : p x = false := by
      have := List.dropWhile_get_zero_not p l (by rw [h]; simp)
      simpa [h] using this
    obtain ⟨ys, hys⟩ : ∃ ys, (x :: xs).rdropWhile p = x :: ys := by
      obtain ⟨t, ht⟩ := List.rdropWhile_prefix p (l := x :: xs)
      cases hr : (x :: xs).rdropWhile p with
      | nil =>
        rw [List.rdropWhile_eq_nil_iff] at hr
        simp [hr x List.mem_cons_self] at hx
      | cons y ys =>
        rw [hr] at ht
        simp only [List.cons_append, List.cons.injEq] at ht
        exact ⟨ys, by rw [ht.1]⟩
    rw [hys, List.dropWhile_cons_of_neg (by simp [hx])]

theorem trimChars_trimChars (cs : List Char) : trimChars (trimChars cs) = trimChars cs := by
  unfold trimChars
  rw [dropWhile_rdropWhile_dropWhile, List.rdropWhile_idempotent]

theorem trim_trim (s : String) : trim (trim s) = trim s := by
  simp [trim, trimChars_trimChars]

/-- A visible character of a text is still there after trimming. -/
theorem mem_trimChars {cs : List Char} {c : Char} (h : c ∈ cs) (hc : isWhite c = false) : c ∈ trimChars cs := by
  have hkeep : ∀ l : List Char, c ∈ l → c ∈ l.dropWhile isWhite := by
    intro l hl
    rw [← List.takeWhile_append_dropWhile (p := isWhite) (l := l), List.mem_append] at hl
    refine hl.resolve_left fun htake => ?_
    rw [List.mem_takeWhile_imp htake] at hc
    cases hc
  unfold trimChars List.rdropWhile
  rw [List.mem_reverse]
  exact hkeep _ (List.mem_reverse.2 (hkeep _ h))

/-! ## Lines -/

theorem splitLines_cons_line {l : List Char} (hl : '\n' ∉ l) (rest : List Char) :
    splitLines (l ++ '\n' :: rest) = l :: splitLines rest := by
  induction l with
  | nil => simp [splitLines]
  | cons c l ih =>
    simp only [List.mem_cons, not_or] at hl
    rw [List.cons_append, splitLines, if_neg (Ne.symm hl.1), ih hl.2]

theorem lines_cons_line {l : List Char} (hl : '\n' ∉ l) (rest : List Char) :
    lines (l ++ '\n' :: rest) = stripCr l :: lines rest := by
  rw [lines, splitLines_cons_line hl]; rfl

theorem stripCr_of_notMem {l : List Char} (h : '\r' ∉ l) : stripCr l = l := by
  unfold stripCr
  rw [if_neg]
  exact fun hlast => h (List.mem_of_getLast? hlast)

/-! ## Words -/

theorem splitOnce_none {x : Char} {cs : List Char} (h : x ∉ cs) : splitOnce x cs = none := by
  have : cs.dropWhile (· ≠ x) = [] := by
    rw [List.dropWhile_eq_nil_iff]
    intro y hy
    simpa using fun hxy : y = x => h (hxy ▸ hy)
  rw [splitOnce, this]

theorem splitOnce_append {x : Char} {cs ds : List Char} (h : x ∉ cs) :
    splitOnce x (cs ++ x :: ds) = some (cs, ds) := by
  have hall : ∀ y ∈ cs, decide (y ≠ x) = true := fun y hy => by
    simpa using fun hxy : y = x => h (hxy ▸ hy)
  have hdrop : (cs ++ x :: ds).dropWhile (· ≠ x) = x :: ds := by
    rw [List.dropWhile_append_of_pos hall, List.dropWhile_cons_of_neg (by simp)]
  have htake : (cs ++ x :: ds).takeWhile (· ≠ x) = cs := by
    rw [List.takeWhile_append_of_pos hall, List.takeWhile_cons_of_neg (by simp), List.append_nil]
  rw [splitOnce, hdrop, htake]

/-- The first word of a text that starts with it. -/
theorem firstWord_append {word rest : List Char} (hne : word ≠ []) (hword : ∀ c ∈ word, isWhite c = false)
    (hrest : ∀ c ∈ rest.head?, isWhite c = true) : firstWord (word ++ rest) = some word := by
  have hdrop : (word ++ rest).dropWhile isWhite = word ++ rest := by
    cases word with
    | nil => exact absurd rfl hne
    | cons c cs => exact List.dropWhile_cons_of_neg (by simp [hword c List.mem_cons_self])
  have htake : (word ++ rest).takeWhile (fun c => !isWhite c) = word := by
    rw [List.takeWhile_append_of_pos fun c hc => by simp [hword c hc]]
    cases rest with
    | nil => simp
    | cons c cs => rw [List.takeWhile_cons_of_neg (by simp [hrest c rfl]), List.append_nil]
  rw [firstWord, hdrop, htake]
  cases word with
  | nil => exact absurd rfl hne
  | cons c cs => rfl

theorem stripPrefix_append (pre cs : List Char) : stripPrefix pre (pre ++ cs) = some cs := by
  simp [stripPrefix]

/-- What is trimmed at the end of a text with a visible character is what follows that. -/
theorem rdropWhile_append {α : Type} {p : α → Bool} {l m : List α} {a : α} (hlast : l.getLast? = some a)
    (ha : p a = false) : (l ++ m).rdropWhile p = l ++ m.rdropWhile p := by
  obtain ⟨l, rfl⟩ : ∃ l', l = l' ++ [a] := by
    obtain ⟨ys, hys⟩ := List.getLast?_eq_some_iff.1 hlast
    exact ⟨ys, hys⟩
  unfold List.rdropWhile
  rw [List.reverse_append, List.dropWhile_append]
  split
  · rename_i hempty
    rw [List.isEmpty_iff] at hempty
    rw [hempty]
    simp [ha]
  · simp

theorem mem_head?_of_rdropWhile {α : Type} {p : α → Bool} {l : List α} {a : α}
    (h : a ∈ (l.rdropWhile p).head?) : a ∈ l.head? := by
  obtain ⟨t, ht⟩ := List.rdropWhile_prefix p (l := l)
  cases hl : l.rdropWhile p with
  | nil => rw [hl] at h; cases h
  | cons b bs =>
    rw [hl] at h ht
    rw [← ht]
    exact h

/-- A text with blanks before it, trimmed: only its own end can lose something. -/
theorem trimChars_append {indent l m : List Char} {a b : Char} (hindent : ∀ c ∈ indent, isWhite c = true)
    (hhead : l.head? = some a) (ha : isWhite a = false) (hlast : l.getLast? = some b)
    (hb : isWhite b = false) : trimChars (indent ++ (l ++ m)) = l ++ m.rdropWhile isWhite := by
  obtain ⟨cs, rfl⟩ : ∃ cs, l = a :: cs := by
    cases l with
    | nil => cases hhead
    | cons c cs => cases hhead; exact ⟨cs, rfl⟩
  unfold trimChars
  rw [List.dropWhile_append_of_pos hindent, List.cons_append, List.dropWhile_cons_of_neg (by simp [ha]),
    ← List.cons_append, rdropWhile_append hlast hb]

/-! ## Numerals -/

theorem parseNat_toDigits (n : ℕ) : parseNat (Nat.toDigits 10 n) = some n := by
  have hd : (Nat.toDigits 10 n).all Char.isDigit := by
    rw [List.all_eq_true]
    exact fun c hc => Nat.isDigit_of_mem_toDigits (by omega) (by omega) hc
  unfold parseNat
  rw [if_pos ⟨Nat.toDigits_ne_nil, hd⟩, Nat.ofDigitChars_ten_toDigits]

theorem digitChar_ne_zero {d : ℕ} (h : 0 < d) (h' : d < 10) : Nat.digitChar d ≠ '0' := by
  interval_cases d <;> decide

/-- A positive number is printed without a leading zero. -/
theorem head?_toDigits {n : ℕ} (hn : 0 < n) : (Nat.toDigits 10 n).head? ≠ some '0' := by
  induction n using Nat.strongRecOn with
  | ind n ih =>
    by_cases h : n < 10
    · rw [Nat.toDigits_of_lt_base h]
      simpa using digitChar_ne_zero hn h
    · rw [Nat.toDigits_of_base_le (by omega) (by omega),
        List.head?_append_of_ne_nil _ Nat.toDigits_ne_nil]
      exact ih (n / 10) (by omega) (by omega)

theorem isDigit_of_mem_repr {n : ℕ} {c : Char} (h : c ∈ n.repr.toList) : c.isDigit := by
  rw [Nat.toList_repr] at h
  exact Nat.isDigit_of_mem_toDigits (by omega) (by omega) h

theorem not_isWhite_of_isDigit {c : Char} (h : c.isDigit) : isWhite c = false := by
  have h1 : 48 ≤ c.toNat ∧ c.toNat ≤ 57 := by
    simp only [Char.isDigit, Bool.and_eq_true, decide_eq_true_eq, ge_iff_le] at h
    exact h
  unfold isWhite
  simp only [Bool.or_eq_false_iff, Bool.and_eq_false_iff, beq_eq_false_iff_ne, decide_eq_false_iff_not]
  omega

end Text
