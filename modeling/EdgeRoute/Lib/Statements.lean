import EdgeRoute.Lib.Lexer

/-!
# Statements

A whole text as statements. A line end or a `;` ends a statement, a string ends at the next quote and
may hold line ends, and a comment ends with its line.

* `statements_text_append`: a text printed from tokens is read back as its statements, whatever follows it.
* `quote_notMem`: no string that is read has a quote in it.
-/

namespace Lex

/-- What the next character is a part of, with what was read of it, last character first. -/
inductive Mode where
  | plain (word : List Char)
  | string (read : List Char)
  | comment

variable (A : Alphabet)

/-- Read a text from inside a statement: the rest of that statement, then the other ones. -/
def statementsFrom : Mode → List Char → Option (List (List Token))
  | .plain w, [] => some [flush w []]
  | .string _, [] => none
  | .comment, [] => some [[]]
  | .plain w, c :: cs =>
    if c = '\n' ∨ c = ';' then (statementsFrom (.plain []) cs).map (flush w [] :: ·)
    else if c = ' ' ∨ c = '\t' then (statementsFrom (.plain []) cs).map (List.modifyHead (flush w))
    else if c = '"' then (statementsFrom (.string []) cs).map (List.modifyHead (flush w))
    else if c = '#' then (statementsFrom .comment cs).map (List.modifyHead (flush w))
    else if A.isSym c then
      (statementsFrom (.plain []) cs).map (List.modifyHead fun ts => flush w (.sym c :: ts))
    else if A.isWord c then statementsFrom (.plain (c :: w)) cs
    else none
  | .string w, c :: cs =>
    if c = '"' then
      (statementsFrom (.plain []) cs).map (List.modifyHead (.quoted (String.ofList w.reverse) :: ·))
    else statementsFrom (.string (c :: w)) cs
  | .comment, c :: cs =>
    if c = '\n' then (statementsFrom (.plain []) cs).map ([] :: ·) else statementsFrom .comment cs

/-- **The statements of a text**, without the empty ones. -/
def statements (cs : List Char) : Option (List (List Token)) :=
  (statementsFrom A (.plain []) cs).map (List.filter fun ts => !ts.isEmpty)

variable {A} {ss : List (List Token)}

/-- One character outside strings and comments. -/
theorem statementsFrom_plain (w : List Char) (c : Char) (cs : List Char) :
    statementsFrom A (.plain w) (c :: cs) =
      if c = '\n' ∨ c = ';' then (statementsFrom A (.plain []) cs).map (flush w [] :: ·)
      else if c = ' ' ∨ c = '\t' then (statementsFrom A (.plain []) cs).map (List.modifyHead (flush w))
      else if c = '"' then (statementsFrom A (.string []) cs).map (List.modifyHead (flush w))
      else if c = '#' then (statementsFrom A .comment cs).map (List.modifyHead (flush w))
      else if A.isSym c then
        (statementsFrom A (.plain []) cs).map (List.modifyHead fun ts => flush w (.sym c :: ts))
      else if A.isWord c then statementsFrom A (.plain (c :: w)) cs
      else none := rfl

/-- One character of a string. -/
theorem statementsFrom_string (w : List Char) (c : Char) (cs : List Char) :
    statementsFrom A (.string w) (c :: cs) =
      if c = '"' then
        (statementsFrom A (.plain []) cs).map (List.modifyHead (.quoted (String.ofList w.reverse) :: ·))
      else statementsFrom A (.string (c :: w)) cs := rfl

/-! ## Printed texts -/

theorem statementsFrom_blanks (n : ℕ) (cs : List Char) :
    statementsFrom A (.plain []) (List.replicate n ' ' ++ cs) = statementsFrom A (.plain []) cs := by
  induction n with
  | zero => rfl
  | succ n ih =>
    rw [List.replicate_succ, List.cons_append, statementsFrom_plain, if_neg (by decide), if_pos (.inl rfl), ih]
    cases statementsFrom A (.plain []) cs with
    | none => rfl
    | some ss => cases ss <;> rfl

/-- The characters of a word are gathered. -/
theorem statementsFrom_word (hsemi : A.isWord ';' = false) {s : List Char}
    (hs : ∀ c ∈ s, A.isWord c = true) (w cs : List Char) :
    statementsFrom A (.plain w) (s ++ cs) = statementsFrom A (.plain (s.reverse ++ w)) cs := by
  induction s generalizing w with
  | nil => rfl
  | cons c s ih =>
    rw [List.forall_mem_cons] at hs
    obtain ⟨hsym, hc⟩ := A.word_apart c hs.1
    simp only [List.mem_cons, List.not_mem_nil, or_false, not_or] at hc
    have hne : c ≠ ';' := by rintro rfl; rw [hsemi] at hs; cases hs.1
    rw [List.cons_append, statementsFrom_plain, if_neg (by tauto), if_neg (by tauto), if_neg hc.2.2.1,
      if_neg hc.2.2.2.1, if_neg (by simp [hsym]), if_pos hs.1, ih hs.2]
    simp

theorem statementsFrom_quoted {s : List Char} (hs : '"' ∉ s) (w cs : List Char) :
    statementsFrom A (.string w) (s ++ '"' :: cs) = (statementsFrom A (.plain []) cs).map
      (List.modifyHead (.quoted (String.ofList (s.reverse ++ w).reverse) :: ·)) := by
  induction s generalizing w with
  | nil => rw [List.nil_append, statementsFrom_string, if_pos rfl]; rfl
  | cons c s ih =>
    rw [List.mem_cons, not_or] at hs
    rw [List.cons_append, statementsFrom_string, if_neg (Ne.symm hs.1), ih hs.2]
    simp

/-- A word ends where the next character is not of a word. -/
theorem statementsFrom_flush {w cs : List Char} (h : ∀ c ∈ cs.head?, A.isWord c = false) :
    statementsFrom A (.plain w) cs = (statementsFrom A (.plain []) cs).map (List.modifyHead (flush w)) := by
  cases cs with
  | nil => rfl
  | cons c cs =>
    have hw : A.isWord c = false := h c rfl
    simp only [statementsFrom_plain, hw, Bool.false_eq_true, if_false]
    split_ifs <;> simp [Function.comp_def, List.modifyHead_modifyHead]

/-- The statements of the tokens of one line. -/
def splitLine (ts : List Token) : List (List Token) := ts.splitOn (.sym ';')

theorem splitLine_cons {t : Token} (ht : t ≠ .sym ';') (ts : List Token) :
    splitLine (t :: ts) = (splitLine ts).modifyHead (t :: ·) := by
  simp [splitLine, List.splitOn, List.splitOnP_cons_eq_if_modifyHead, ht]

theorem splitLine_semicolon (ts : List Token) : splitLine (.sym ';' :: ts) = [] :: splitLine ts := by
  simp [splitLine, List.splitOn, List.splitOnP_cons_eq_if_modifyHead]

/-- What a token adds to the statements that follow it. -/
theorem modifyHead_append (ts : List Token) (f : List Token → List Token) :
    List.modifyHead f (splitLine ts ++ ss) = List.modifyHead f (splitLine ts) ++ ss := by
  cases h : splitLine ts with
  | nil => exact absurd h (List.splitOnP_ne_nil _ _)
  | cons s rest => rfl

/-- A printed line is read back, whatever follows it. -/
theorem statementsFrom_line (hsemi : A.isWord ';' = false) {ps : List Piece} (h : Apart A ps) (rest : List Char) :
    statementsFrom A (.plain []) (line ps ++ '\n' :: rest) =
      (statementsFrom A (.plain []) rest).map (splitLine (ps.map Piece.token) ++ ·) := by
  induction ps with
  | nil => simp [line, statementsFrom_plain, splitLine]
  | cons p ps ih =>
    obtain ⟨hp, hgap, hps⟩ := h
    have hhead := head_line (A := A) p ps
    obtain ⟨gap, token⟩ := p
    have hline : line (⟨gap, token⟩ :: ps) ++ '\n' :: rest =
        List.replicate gap ' ' ++ (token.chars ++ (line ps ++ '\n' :: rest)) := by
      simp [line, Piece.chars]
    have hadd : ∀ t : Token, t ≠ .sym ';' →
        (statementsFrom A (.plain []) (line ps ++ '\n' :: rest)).map (List.modifyHead (t :: ·)) =
          (statementsFrom A (.plain []) rest).map (splitLine (t :: ps.map Piece.token) ++ ·) := by
      intro t ht
      rw [ih hps, splitLine_cons ht, Option.map_map]
      simp only [Function.comp_def, modifyHead_append]
    rw [hline, statementsFrom_blanks]
    cases token with
    | word s =>
      have hne : s.toList.reverse ≠ [] := by simpa using hp.1
      have hnext : ∀ c ∈ (line ps ++ '\n' :: rest).head?, A.isWord c = false := by
        intro c hc
        rw [List.head?_append] at hc
        cases hl : (line ps).head? with
        | some x =>
          rw [hl] at hc
          cases hc
          exact hhead rfl hgap hps _ hl
        | none =>
          rw [hl] at hc
          cases hc
          by_contra hw
          exact (A.word_apart _ (by simpa using hw)).2 (by simp)
      have hflush : flush s.toList.reverse = (Token.word s :: ·) := by
        funext ts
        simp [flush, hne]
      rw [Token.chars, statementsFrom_word hsemi hp.2, List.append_nil, statementsFrom_flush hnext, hflush]
      exact hadd (.word s) (by simp)
    | quoted s =>
      rw [Token.chars, List.cons_append, List.append_assoc, statementsFrom_plain, if_neg (by decide),
        if_neg (by decide), if_pos rfl, List.singleton_append, statementsFrom_quoted hp, Option.map_map]
      have hkey := hadd (.quoted s) (by simp)
      rw [List.map_cons, ← hkey]
      congr 1
      funext ss
      cases ss <;> simp
    | sym c =>
      have hsym : A.isSym c = true := hp
      have hc := A.sym_apart c hsym
      simp only [List.mem_cons, List.not_mem_nil, or_false, not_or] at hc
      rw [Token.chars, List.singleton_append, statementsFrom_plain]
      by_cases hend : c = ';'
      · subst hend
        rw [if_pos (.inr rfl), ih hps, Option.map_map, List.map_cons, splitLine_semicolon]
        rfl
      · rw [if_neg (by tauto), if_neg (by tauto), if_neg hc.2.2.1, if_neg hc.2.2.2.1, if_pos hsym]
        exact hadd (.sym c) (by simpa using hend)

theorem statementsFrom_text (hsemi : A.isWord ';' = false) {ls : List (List Piece)}
    (h : ∀ ps ∈ ls, Apart A ps) (rest : List Char) :
    statementsFrom A (.plain []) (text ls ++ rest) = (statementsFrom A (.plain []) rest).map
      (ls.flatMap (fun ps => splitLine (ps.map Piece.token)) ++ ·) := by
  induction ls with
  | nil => simp [text]
  | cons ps ls ih =>
    rw [List.forall_mem_cons] at h
    have htext : text (ps :: ls) ++ rest = line ps ++ '\n' :: (text ls ++ rest) := by simp [text]
    rw [htext, statementsFrom_line hsemi h.1, ih h.2, Option.map_map]
    simp [Function.comp_def]

/-- The statements of printed lines, without the empty ones. -/
def lineStatements (ls : List (List Piece)) : List (List Token) :=
  (ls.flatMap fun ps => splitLine (ps.map Piece.token)).filter fun ts => !ts.isEmpty

@[simp] theorem lineStatements_append (ls ls' : List (List Piece)) :
    lineStatements (ls ++ ls') = lineStatements ls ++ lineStatements ls' := by
  simp [lineStatements]

/-- Lines of one statement each. -/
theorem lineStatements_map {α : Type} {f : α → List Piece} {g : α → List Token} (as : List α)
    (h : ∀ a, splitLine ((f a).map Piece.token) = [g a]) (hne : ∀ a, g a ≠ []) :
    lineStatements (as.map f) = as.map g := by
  induction as with
  | nil => rfl
  | cons a as ih =>
    have hcons : lineStatements ((a :: as).map f) = lineStatements [f a] ++ lineStatements (as.map f) := by
      simp [lineStatements]
    rw [hcons, ih]
    simp [lineStatements, h, hne]

/-- **A printed text is read back**, with whatever follows it. -/
theorem statements_text_append (hsemi : A.isWord ';' = false) {ls : List (List Piece)}
    (h : ∀ ps ∈ ls, Apart A ps) (rest : List Char) :
    statements A (text ls ++ rest) = (statements A rest).map (lineStatements ls ++ ·) := by
  unfold statements
  rw [statementsFrom_text hsemi h, Option.map_map, Option.map_map]
  simp [Function.comp_def, lineStatements]

theorem statements_text (hsemi : A.isWord ';' = false) {ls : List (List Piece)}
    (h : ∀ ps ∈ ls, Apart A ps) : statements A (text ls) = some (lineStatements ls) := by
  have hend : statements A [] = some [] := rfl
  have key := statements_text_append hsemi h []
  rw [hend, List.append_nil] at key
  simpa using key

/-! ## Strings -/

/-- The strings among tokens have no quote in them. -/
def Unquoted (ts : List Token) : Prop := ∀ s, .quoted s ∈ ts → '"' ∉ s.toList

theorem Unquoted.flush {ts : List Token} (h : Unquoted ts) (w : List Char) : Unquoted (flush w ts) := by
  unfold Lex.flush
  split
  · exact h
  · intro s hs
    exact h s (by simpa using hs)

theorem Unquoted.cons {ts : List Token} {t : Token} (ht : ∀ s, t = .quoted s → '"' ∉ s.toList)
    (h : Unquoted ts) : Unquoted (t :: ts) := by
  intro s hs
  rcases List.mem_cons.1 hs with hs | hs
  · exact ht s hs.symm
  · exact h s hs

theorem unquoted_modifyHead {f : List Token → List Token} (hf : ∀ ts, Unquoted ts → Unquoted (f ts))
    (h : ∀ ts ∈ ss, Unquoted ts) : ∀ ts ∈ ss.modifyHead f, Unquoted ts := by
  cases ss with
  | nil => exact h
  | cons s ss =>
    rw [List.forall_mem_cons] at h
    exact List.forall_mem_cons.2 ⟨hf s h.1, h.2⟩

/-- A mode that is inside a string has read no quote. -/
def Mode.Unclosed : Mode → Prop
  | .string w => '"' ∉ w
  | _ => True

/-- No string that is read has a quote in it. -/
theorem unquoted_statementsFrom {cs : List Char} {mode : Mode} (hmode : mode.Unclosed)
    (h : statementsFrom A mode cs = some ss) : ∀ ts ∈ ss, Unquoted ts := by
  have hnil : Unquoted [] := fun s hs => by cases hs
  have hplain : (Mode.plain []).Unclosed := trivial
  have hcomment : Mode.comment.Unclosed := trivial
  have hstring : (Mode.string []).Unclosed := List.not_mem_nil
  induction cs generalizing mode ss with
  | nil =>
    cases mode with
    | plain w => cases h; simpa using hnil.flush w
    | string w => cases h
    | comment => cases h; simpa using hnil
  | cons c cs ih =>
    cases mode with
    | plain w =>
      rw [statementsFrom_plain] at h
      split_ifs at h
      · obtain ⟨rest, hrest, rfl⟩ := Option.map_eq_some_iff.1 h
        exact List.forall_mem_cons.2 ⟨hnil.flush w, ih hplain hrest⟩
      · obtain ⟨rest, hrest, rfl⟩ := Option.map_eq_some_iff.1 h
        exact unquoted_modifyHead (fun ts hts => hts.flush w) (ih hplain hrest)
      · obtain ⟨rest, hrest, rfl⟩ := Option.map_eq_some_iff.1 h
        exact unquoted_modifyHead (fun ts hts => hts.flush w) (ih hstring hrest)
      · obtain ⟨rest, hrest, rfl⟩ := Option.map_eq_some_iff.1 h
        exact unquoted_modifyHead (fun ts hts => hts.flush w) (ih hcomment hrest)
      · obtain ⟨rest, hrest, rfl⟩ := Option.map_eq_some_iff.1 h
        exact unquoted_modifyHead (fun ts hts => (hts.cons (by simp)).flush w) (ih hplain hrest)
      · have hnext : (Mode.plain (c :: w)).Unclosed := trivial
        exact ih hnext h
    | string w =>
      rw [statementsFrom_string] at h
      split_ifs at h with hc
      · obtain ⟨rest, hrest, rfl⟩ := Option.map_eq_some_iff.1 h
        refine unquoted_modifyHead (fun ts hts => hts.cons ?_) (ih hplain hrest)
        intro s hs
        cases hs
        have hw : '"' ∉ w := hmode
        simpa using hw
      · have hnext : (Mode.string (c :: w)).Unclosed := by
          simp only [Mode.Unclosed, List.mem_cons, not_or]
          exact ⟨Ne.symm hc, hmode⟩
        exact ih hnext h
    | comment =>
      have hread : statementsFrom A .comment (c :: cs) =
          if c = '\n' then (statementsFrom A (.plain []) cs).map ([] :: ·)
          else statementsFrom A .comment cs := rfl
      rw [hread] at h
      split_ifs at h
      · obtain ⟨rest, hrest, rfl⟩ := Option.map_eq_some_iff.1 h
        exact List.forall_mem_cons.2 ⟨hnil, ih hplain hrest⟩
      · exact ih hcomment h

/-- **No statement has a string with a quote in it.** -/
theorem quote_notMem {cs : List Char} {ts : List Token} {s : String} (h : statements A cs = some ss)
    (hts : ts ∈ ss) (hs : .quoted s ∈ ts) : '"' ∉ s.toList := by
  obtain ⟨all, hall, rfl⟩ := Option.map_eq_some_iff.1 h
  have hmem := (List.mem_filter.1 hts).1
  have hmode : (Mode.plain []).Unclosed := trivial
  exact unquoted_statementsFrom hmode hall ts hmem s hs

end Lex
