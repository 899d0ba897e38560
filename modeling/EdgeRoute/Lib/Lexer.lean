import EdgeRoute.Lib.Text

/-!
# A line lexer

Words, quoted strings and single symbols, separated by blanks; `#` starts a comment.

* `lex_line`: a line printed from tokens is read back as these tokens, if no two words touch.
-/

namespace Lex

inductive Token where
  | word (s : String)
  | quoted (s : String)
  | sym (c : Char)
deriving DecidableEq

/-- The characters of words and the symbols of a language. Neither has a blank, a quote, a
comment sign or a line end among them. -/
structure Alphabet where
  isWord : Char → Bool
  isSym : Char → Bool
  word_apart : ∀ c, isWord c = true → isSym c = false ∧ c ∉ [' ', '\t', '"', '#', '\n']
  sym_apart : ∀ c, isSym c = true → c ∉ [' ', '\t', '"', '#', '\n']

variable (A : Alphabet)

/-- The word read so far, last character first, before the tokens that follow. -/
def flush (w : List Char) (ts : List Token) : List Token :=
  if w = [] then ts else .word (String.ofList w.reverse) :: ts

/-- Read a line from inside a word `w`, or, if `quoted`, from inside a string `w`. -/
def lexFrom : Bool → List Char → List Char → Option (List Token)
  | false, w, [] => some (flush w [])
  | true, _, [] => none
  | false, w, c :: cs =>
    if c = ' ' ∨ c = '\t' then (lexFrom false [] cs).map (flush w)
    else if c = '"' then (lexFrom true [] cs).map (flush w)
    else if c = '#' then some (flush w [])
    else if A.isSym c then (lexFrom false [] cs).map fun ts => flush w (.sym c :: ts)
    else if A.isWord c then lexFrom false (c :: w) cs
    else none
  | true, w, c :: cs =>
    if c = '"' then (lexFrom false [] cs).map fun ts => .quoted (String.ofList w.reverse) :: ts
    else lexFrom true (c :: w) cs

def lex (line : List Char) : Option (List Token) := lexFrom A false [] line

/-! ## Printed lines -/

def Token.chars : Token → List Char
  | .word s => s.toList
  | .quoted s => '"' :: (s.toList ++ ['"'])
  | .sym c => [c]

/-- A token after some blanks. -/
structure Piece where
  gap : ℕ
  token : Token

def Piece.chars (p : Piece) : List Char := List.replicate p.gap ' ' ++ p.token.chars

def line (ps : List Piece) : List Char := ps.flatMap Piece.chars

/-- Lines, each with its line end. -/
def text (ls : List (List Piece)) : List Char := ls.flatMap fun ps => line ps ++ ['\n']

/-- The token can be read back. -/
def Token.Plain : Token → Prop
  | .word s => s ≠ "" ∧ ∀ c ∈ s.toList, A.isWord c = true
  | .quoted s => '"' ∉ s.toList ∧ '\n' ∉ s.toList
  | .sym c => A.isSym c = true

instance (t : Token) : Decidable (t.Plain A) :=
  match t with
  | .word _ => inferInstanceAs (Decidable (_ ∧ _))
  | .quoted _ => inferInstanceAs (Decidable (_ ∧ _))
  | .sym _ => inferInstanceAs (Decidable (_ = _))

def Token.isWord : Token → Bool
  | .word _ => true
  | _ => false

/-- Every token can be read back, and no two words touch. -/
def Spaced : List Piece → Prop
  | [] => True
  | p :: ps => p.token.Plain A ∧
      (∀ q ∈ ps.head?, p.token.isWord = true → q.token.isWord = true → 0 < q.gap) ∧ Spaced ps

/-- The token ends where it was meant to. Unlike `Token.Plain`, a string may hold a line end. -/
def Token.Closed : Token → Prop
  | .word s => s ≠ "" ∧ ∀ c ∈ s.toList, A.isWord c = true
  | .quoted s => '"' ∉ s.toList
  | .sym c => A.isSym c = true

instance (t : Token) : Decidable (t.Closed A) :=
  match t with
  | .word _ => inferInstanceAs (Decidable (_ ∧ _))
  | .quoted _ => inferInstanceAs (Decidable (_ ∉ _))
  | .sym _ => inferInstanceAs (Decidable (_ = _))

/-- Every token ends where it was meant to, and no two words touch. -/
def Apart : List Piece → Prop
  | [] => True
  | p :: ps => p.token.Closed A ∧
      (∀ q ∈ ps.head?, p.token.isWord = true → q.token.isWord = true → 0 < q.gap) ∧ Apart ps

variable {A}

theorem Token.Plain.closed {t : Token} (h : t.Plain A) : t.Closed A := by
  cases t with
  | word s => exact h
  | quoted s => exact h.1
  | sym c => exact h

theorem Spaced.apart {ps : List Piece} (h : Spaced A ps) : Apart A ps := by
  induction ps with
  | nil => trivial
  | cons p ps ih => exact ⟨h.1.closed, h.2.1, ih h.2.2⟩

@[simp] theorem flush_nil (ts : List Token) : flush [] ts = ts := rfl

/-- One character outside a string. -/
theorem lexFrom_cons (w : List Char) (c : Char) (cs : List Char) : lexFrom A false w (c :: cs) =
    if c = ' ' ∨ c = '\t' then (lexFrom A false [] cs).map (flush w)
    else if c = '"' then (lexFrom A true [] cs).map (flush w)
    else if c = '#' then some (flush w [])
    else if A.isSym c then (lexFrom A false [] cs).map fun ts => flush w (.sym c :: ts)
    else if A.isWord c then lexFrom A false (c :: w) cs
    else none := rfl

/-- One character inside a string. -/
theorem lexFrom_string_cons (w : List Char) (c : Char) (cs : List Char) : lexFrom A true w (c :: cs) =
    if c = '"' then (lexFrom A false [] cs).map fun ts => .quoted (String.ofList w.reverse) :: ts
    else lexFrom A true (c :: w) cs := rfl

theorem lexFrom_blanks (n : ℕ) (cs : List Char) :
    lexFrom A false [] (List.replicate n ' ' ++ cs) = lexFrom A false [] cs := by
  induction n with
  | zero => rfl
  | succ n ih =>
    rw [List.replicate_succ, List.cons_append, lexFrom_cons, if_pos (.inl rfl), ih]
    cases lexFrom A false [] cs <;> rfl

/-- The characters of a word are gathered. -/
theorem lexFrom_word {s : List Char} (hs : ∀ c ∈ s, A.isWord c = true) (w cs : List Char) :
    lexFrom A false w (s ++ cs) = lexFrom A false (s.reverse ++ w) cs := by
  induction s generalizing w with
  | nil => rfl
  | cons c s ih =>
    rw [List.forall_mem_cons] at hs
    obtain ⟨hsym, hc⟩ := A.word_apart c hs.1
    simp only [List.mem_cons, List.not_mem_nil, or_false, not_or] at hc
    rw [List.cons_append, lexFrom_cons, if_neg (by tauto), if_neg hc.2.2.1, if_neg hc.2.2.2.1,
      if_neg (by simp [hsym]), if_pos hs.1, ih hs.2]
    simp

theorem lexFrom_quoted {s : List Char} (hs : '"' ∉ s) (w cs : List Char) :
    lexFrom A true w (s ++ '"' :: cs) =
      (lexFrom A false [] cs).map fun ts => .quoted (String.ofList (s.reverse ++ w).reverse) :: ts := by
  induction s generalizing w with
  | nil => rw [List.nil_append, lexFrom_string_cons, if_pos rfl]; rfl
  | cons c s ih =>
    rw [List.mem_cons, not_or] at hs
    rw [List.cons_append, lexFrom_string_cons, if_neg (Ne.symm hs.1), ih hs.2]
    simp

/-- A word ends where the next character is not of a word. -/
theorem lexFrom_flush {w cs : List Char} (h : ∀ c ∈ cs.head?, A.isWord c = false) :
    lexFrom A false w cs = (lexFrom A false [] cs).map (flush w) := by
  cases cs with
  | nil => rfl
  | cons c cs =>
    have hw : A.isWord c = false := h c rfl
    simp only [lexFrom_cons, hw, Bool.false_eq_true, if_false]
    split_ifs <;> simp [Function.comp_def]

/-- A printed line has no line end in it. -/
theorem newline_notMem_line {ps : List Piece} (h : Spaced A ps) : '\n' ∉ line ps := by
  induction ps with
  | nil => simp [line]
  | cons p ps ih =>
    obtain ⟨hp, -, hps⟩ := h
    have hnl : '\n' ∉ p.token.chars := by
      intro hmem
      cases ht : p.token with
      | word s =>
        rw [ht] at hp hmem
        exact (A.word_apart _ (hp.2 _ hmem)).2 (by simp)
      | quoted s =>
        rw [ht] at hp hmem
        simp only [Token.chars, List.mem_cons, List.mem_append, List.not_mem_nil, or_false] at hmem
        rcases hmem with h | h | h
        · cases h
        · exact hp.2 h
        · cases h
      | sym x =>
        rw [ht] at hp hmem
        rw [Token.chars, List.mem_singleton] at hmem
        exact A.sym_apart x hp (by simp [← hmem])
    simp only [line, List.flatMap_cons, Piece.chars, List.mem_append, not_or]
    exact ⟨⟨fun hmem => absurd (List.eq_of_mem_replicate hmem) (by decide), hnl⟩, ih hps⟩

/-- The line after a word starts with a blank, a quote or a symbol. -/
theorem head_line (p : Piece) (ps : List Piece) (hp : p.token.isWord = true)
    (hgap : ∀ q ∈ ps.head?, p.token.isWord = true → q.token.isWord = true → 0 < q.gap)
    (hps : Apart A ps) : ∀ c ∈ (line ps).head?, A.isWord c = false := by
  have hblank : A.isWord ' ' = false := by
    by_contra h
    exact (A.word_apart ' ' (by simpa using h)).2 (by simp)
  cases ps with
  | nil => simp [line]
  | cons q ps =>
    intro c hc
    simp only [line, List.flatMap_cons, Piece.chars] at hc
    cases hg : q.gap with
    | succ n =>
      rw [hg, List.replicate_succ] at hc
      cases hc; exact hblank
    | zero =>
      rw [hg, List.replicate_zero, List.nil_append] at hc
      cases ht : q.token with
      | word s => exact absurd (hgap q rfl hp (by rw [ht]; rfl)) (by omega)
      | quoted s =>
        rw [ht] at hc
        cases hc
        by_contra h
        exact (A.word_apart '"' (by simpa using h)).2 (by simp)
      | sym x =>
        rw [ht] at hc
        cases hc
        have hsym := hps.1
        rw [ht] at hsym
        by_contra h
        rw [Token.Closed, (A.word_apart c (by simpa using h)).1] at hsym
        cases hsym

/-- **A printed line is read back.** -/
theorem lex_line {ps : List Piece} (h : Spaced A ps) : lex A (line ps) = some (ps.map Piece.token) := by
  unfold lex
  induction ps with
  | nil => rfl
  | cons p ps ih =>
    obtain ⟨hp, hgap, hps⟩ := h
    have hhead := head_line (A := A) p ps
    obtain ⟨gap, token⟩ := p
    have hline : line (⟨gap, token⟩ :: ps) = List.replicate gap ' ' ++ (token.chars ++ line ps) := by
      simp [line, Piece.chars]
    rw [hline, lexFrom_blanks]
    cases token with
    | word s =>
      have hne : s.toList.reverse ≠ [] := by simpa using hp.1
      rw [Token.chars, lexFrom_word hp.2, List.append_nil, lexFrom_flush (hhead rfl hgap hps.apart), ih hps]
      simp [flush, hne]
    | quoted s =>
      rw [Token.chars, List.cons_append, List.append_assoc, lexFrom_cons, if_neg (by decide), if_pos rfl,
        List.singleton_append, lexFrom_quoted hp.1, ih hps]
      simp
    | sym c =>
      have hsym : A.isSym c = true := hp
      have hc := A.sym_apart c hsym
      simp only [List.mem_cons, List.not_mem_nil, or_false, not_or] at hc
      rw [Token.chars, List.singleton_append, lexFrom_cons, if_neg (by tauto), if_neg hc.2.2.1,
        if_neg hc.2.2.2.1, if_pos hsym, ih hps]
      simp

end Lex
