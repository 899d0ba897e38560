import EdgeRoute.Lib.Text

/-!
# Percent-encoding and forms

How URLs are decoded: escapes of three characters (`percentDecode`), the strict and the lossy reading of
bytes as UTF-8, and `application/x-www-form-urlencoded`.

* `decodeStrict_self_iff`, `formDecode_self_iff`: which texts decode to themselves.
* `ascii_decodeStrict`, `ascii_formDecode`: decoding makes no ASCII characters, so that a text is never the
  decoding of a part of itself that lacks one.
-/

namespace Urlencoded

/-! ## Escapes -/

def hexValue (c : Char) : Option UInt8 :=
  if c.isDigit then some (UInt8.ofNat (c.toNat - 48))
  else if 'a' ≤ c ∧ c ≤ 'f' then some (UInt8.ofNat (c.toNat - 87))
  else if 'A' ≤ c ∧ c ≤ 'F' then some (UInt8.ofNat (c.toNat - 55))
  else none

/-- The bytes of the text, with each `%` and two hex digits as the byte they stand for. A `%` without them
is a character like any other. -/
def percentDecode : List Char → List UInt8
  | '%' :: a :: b :: rest =>
    match hexValue a, hexValue b with
    | some x, some y => (16 * x + y) :: percentDecode rest
    | _, _ => String.utf8EncodeChar '%' ++ percentDecode (a :: b :: rest)
  | c :: rest => String.utf8EncodeChar c ++ percentDecode rest
  | [] => []

/-- There is a `%` with two hex digits after it. -/
def hasEscape : List Char → Bool
  | '%' :: a :: b :: rest => ((hexValue a).isSome && (hexValue b).isSome) || hasEscape (a :: b :: rest)
  | _ :: rest => hasEscape rest
  | [] => false

/-! ## Bytes as text -/

/-- The bytes of the text. -/
def utf8 (cs : List Char) : List UInt8 := cs.flatMap String.utf8EncodeChar

/-- Bytes read as UTF-8, or not at all. -/
def decodeUtf8 (bs : List UInt8) : Option String := String.fromUTF8? bs.toByteArray

/-- The second byte may follow the first in a sequence of three or four bytes. -/
def mayFollow (b b' : UInt8) : Bool :=
  (b == 0xE0 && 0xA0 ≤ b' && b' ≤ 0xBF) || (0xE1 ≤ b && b ≤ 0xEC && 0x80 ≤ b' && b' ≤ 0xBF) ||
    (b == 0xED && 0x80 ≤ b' && b' ≤ 0x9F) || (0xEE ≤ b && b ≤ 0xEF && 0x80 ≤ b' && b' ≤ 0xBF) ||
    (b == 0xF0 && 0x90 ≤ b' && b' ≤ 0xBF) || (0xF1 ≤ b && b ≤ 0xF3 && 0x80 ≤ b' && b' ≤ 0xBF) ||
    (b == 0xF4 && 0x80 ≤ b' && b' ≤ 0x8F)

/-- How many bytes one replacement character stands for: the longest start of a sequence. -/
def brokenLen : List UInt8 → ℕ
  | b :: b' :: b'' :: _ =>
    if mayFollow b b' then if 0xF0 ≤ b ∧ 0x80 ≤ b'' ∧ b'' ≤ 0xBF then 3 else 2 else 1
  | [b, b'] => if mayFollow b b' then 2 else 1
  | _ => 1

theorem brokenLen_pos (bs : List UInt8) : 0 < brokenLen bs := by
  unfold brokenLen
  split
  · split
    · split <;> decide
    · decide
  · split <;> decide
  · decide

/-- `String::from_utf8_lossy`: what is not UTF-8 becomes the replacement character. -/
def decodeLossy : List UInt8 → List Char
  | [] => []
  | b :: bs =>
    match (b :: bs).toByteArray.utf8DecodeChar? 0 with
    | some c => c :: decodeLossy ((b :: bs).drop c.utf8Size)
    | none => '\uFFFD' :: decodeLossy ((b :: bs).drop (brokenLen (b :: bs)))
termination_by bs => bs.length
decreasing_by
  · have := c.utf8Size_pos
    simp only [List.length_drop, List.length_cons]
    omega
  · have := brokenLen_pos (b :: bs)
    simp only [List.length_drop, List.length_cons]
    omega

/-! ## Forms -/

def plusToSpace (cs : List Char) : List Char := cs.map fun c => if c = '+' then ' ' else c

/-- A name or a value of a form. -/
def formDecode (cs : List Char) : List Char := decodeLossy (percentDecode (plusToSpace cs))

/-- One pair of a form. -/
def formPair (part : List Char) : List Char × List Char :=
  match Text.splitOnce '=' part with
  | some (key, value) => (formDecode key, formDecode value)
  | none => (formDecode part, [])

/-- The pairs of a form, in order. -/
def formPairs (query : List Char) : List (List Char × List Char) :=
  ((query.splitOn '&').filter (· ≠ [])).map formPair

/-- The values of a name. -/
def formValues (name query : List Char) : List (List Char) :=
  ((formPairs query).filter (·.1 = name)).map (·.2)

/-! ## Counting ASCII -/

/-- How many characters are ASCII. -/
def asciiChars (cs : List Char) : ℕ := cs.countP fun c => c.toNat < 128

/-- How many bytes are ASCII. -/
def asciiBytes (bs : List UInt8) : ℕ := bs.countP fun b => b < 128

theorem asciiBytes_utf8EncodeChar (c : Char) :
    asciiBytes (String.utf8EncodeChar c) = if c.toNat < 128 then 1 else 0 := by
  have hbyte : ∀ n : ℕ, n < 256 → ((UInt8.ofNat n < 128) ↔ n < 128) := by
    intro n hn
    rw [UInt8.lt_iff_toNat_lt, UInt8.toNat_ofNat', Nat.mod_eq_of_lt hn]
    rfl
  have hval : c.val.toNat = c.toNat := rfl
  unfold String.utf8EncodeChar asciiBytes
  simp only [hval]
  split
  · rename_i h
    have hlt : c.toNat < 128 := by omega
    simp [hbyte c.toNat (by omega), hlt]
  · rename_i h
    have hge : ¬ c.toNat < 128 := by omega
    -- every byte of a longer sequence has its top bit set
    have htop : ∀ n k l : ℕ, 128 ≤ l → 0 < k → k + l ≤ 256 → ¬ UInt8.ofNat (n % k + l) < 128 := by
      intro n k l hl hk hle
      have hn := Nat.mod_lt n hk
      rw [hbyte _ (by omega)]
      omega
    have hmore (n : ℕ) := htop n 64 128 (by omega) (by omega) (by omega)
    have htwo (n : ℕ) := htop n 32 192 (by omega) (by omega) (by omega)
    have hthree (n : ℕ) := htop n 16 224 (by omega) (by omega) (by omega)
    have hfour (n : ℕ) := htop n 8 240 (by omega) (by omega) (by omega)
    simp only [if_neg hge]
    split
    · simp only [List.countP_cons, List.countP_nil, decide_eq_true_eq, if_neg (hmore _), if_neg (htwo _)]
    split
    · simp only [List.countP_cons, List.countP_nil, decide_eq_true_eq, if_neg (hmore _), if_neg (hthree _)]
    · simp only [List.countP_cons, List.countP_nil, decide_eq_true_eq, if_neg (hmore _), if_neg (hfour _)]

theorem hexValue_ascii {c : Char} (h : (hexValue c).isSome = true) : c.toNat < 128 := by
  unfold hexValue at h
  split at h
  · rename_i hd
    simp only [Char.isDigit, Bool.and_eq_true, decide_eq_true_eq] at hd
    have := hd.2
    change c.val ≤ 57 at this
    have h' : c.toNat ≤ 57 := this
    omega
  split at h
  · rename_i hd
    have h' : c.toNat ≤ 102 := hd.2
    omega
  split at h
  · rename_i hd
    have h' : c.toNat ≤ 70 := hd.2
    omega
  · cases h

variable {cs cs' : List Char} {bs : List UInt8}

theorem asciiChars_cons (c : Char) (cs : List Char) :
    asciiChars (c :: cs) = asciiChars cs + if c.toNat < 128 then 1 else 0 := by
  simp [asciiChars, List.countP_cons]

theorem asciiBytes_append (bs bs' : List UInt8) : asciiBytes (bs ++ bs') = asciiBytes bs + asciiBytes bs' :=
  List.countP_append

/-- **Decoding makes no ASCII characters**, and an escape costs some. -/
theorem asciiBytes_percentDecode (cs : List Char) :
    asciiBytes (percentDecode cs) ≤ asciiChars cs ∧
      (hasEscape cs = true → asciiBytes (percentDecode cs) < asciiChars cs) := by
  fun_induction percentDecode cs with
  | case1 a b rest x y hy hx ih =>
    have ha := hexValue_ascii (c := a) (by rw [hx]; rfl)
    have hb := hexValue_ascii (c := b) (by rw [hy]; rfl)
    have hbyte : asciiBytes ((16 * x + y) :: percentDecode rest) ≤ asciiBytes (percentDecode rest) + 1 := by
      unfold asciiBytes
      rw [List.countP_cons]
      split <;> omega
    simp only [asciiChars_cons, if_pos ha, if_pos hb]
    constructor
    · omega
    · intro _
      omega
  | case2 a b rest h ih =>
    rw [asciiBytes_append, asciiBytes_utf8EncodeChar, asciiChars_cons]
    refine ⟨by omega, fun hesc => ?_⟩
    have hesc' : hasEscape (a :: b :: rest) = true := by
      rw [hasEscape, Bool.or_eq_true, Bool.and_eq_true, Option.isSome_iff_exists, Option.isSome_iff_exists] at hesc
      rcases hesc with ⟨⟨x, hx⟩, y, hy⟩ | hesc
      · exact (h x y hx hy).elim
      · exact hesc
    have := ih.2 hesc'
    omega
  | case3 c rest h ih =>
    rw [asciiBytes_append, asciiBytes_utf8EncodeChar, asciiChars_cons]
    refine ⟨by omega, fun hesc => ?_⟩
    have hesc' : hasEscape rest = true := by
      simpa [hasEscape, h] using hesc
    have := ih.2 hesc'
    omega
  | case4 => simp [asciiBytes, hasEscape]

/-- Without an escape the bytes are those of the text. -/
theorem percentDecode_plain (h : hasEscape cs = false) : percentDecode cs = utf8 cs := by
  unfold utf8
  fun_induction percentDecode cs with
  | case1 a b rest x y hy hx ih => simp [hasEscape, hx, hy] at h
  | case2 a b rest hno ih =>
    rw [hasEscape, Bool.or_eq_false_iff] at h
    rw [List.flatMap_cons, ih h.2]
  | case3 c rest hno ih =>
    rw [List.flatMap_cons, ih (by simpa [hasEscape, hno] using h)]
  | case4 => rfl

/-! ## Strict text -/

/-- A text is read from its own bytes, and from no others. -/
theorem decodeUtf8_eq_some {s : String} : decodeUtf8 bs = some s ↔ bs = utf8 s.toList := by
  have hbytes : bs = utf8 s.toList ↔ bs.toByteArray = s.toByteArray := by
    rw [← String.utf8Encode_toList, ← List.toByteArray_inj]
    rfl
  rw [hbytes, decodeUtf8, String.fromUTF8?]
  constructor
  · intro h
    split at h
    · cases h
      rfl
    · cases h
  · intro h
    rw [dif_pos (h ▸ s.isValidUTF8), Option.some.injEq]
    exact String.toByteArray_inj.1 h

theorem asciiBytes_utf8 (cs : List Char) : asciiBytes (utf8 cs) = asciiChars cs := by
  induction cs with
  | nil => rfl
  | cons c cs ih =>
    rw [asciiChars_cons, ← ih, utf8, List.flatMap_cons, asciiBytes_append, asciiBytes_utf8EncodeChar, Nat.add_comm]
    rfl

/-- The decoding of a text has at most its ASCII characters. -/
theorem ascii_decodeStrict {s : String} (h : decodeUtf8 (percentDecode cs) = some s) :
    asciiChars s.toList ≤ asciiChars cs := by
  rw [← asciiBytes_utf8, ← decodeUtf8_eq_some.1 h]
  exact (asciiBytes_percentDecode cs).1

/-- **A text decodes to itself where it has no escape.** -/
theorem decodeStrict_self_iff {s : String} : decodeUtf8 (percentDecode s.toList) = some s ↔
    hasEscape s.toList = false := by
  constructor
  · intro h
    rw [← Bool.not_eq_true]
    intro hesc
    have hlt := (asciiBytes_percentDecode s.toList).2 hesc
    rw [decodeUtf8_eq_some.1 h, asciiBytes_utf8] at hlt
    omega
  · intro h
    rw [percentDecode_plain h, decodeUtf8_eq_some]

/-! ## Lossy text -/

/-- What is UTF-8 is read as it is. -/
theorem decodeLossy_utf8 (cs : List Char) : decodeLossy (utf8 cs) = cs := by
  induction cs with
  | nil => rw [utf8, List.flatMap_nil, decodeLossy]
  | cons c cs ih =>
    have hdecode : (utf8 (c :: cs)).toByteArray.utf8DecodeChar? 0 = some c := by
      rw [utf8, List.flatMap_cons, List.toByteArray_append]
      exact ByteArray.utf8DecodeChar?_utf8EncodeChar_append
    have hdrop : (utf8 (c :: cs)).drop c.utf8Size = utf8 cs := by
      rw [utf8, List.flatMap_cons, ← String.length_utf8EncodeChar c, List.drop_left]
      rfl
    cases hbytes : utf8 (c :: cs) with
    | nil =>
      rw [hbytes] at hdecode
      cases hdecode
    | cons b bs =>
      rw [hbytes] at hdecode hdrop
      rw [decodeLossy, hdecode]
      simp only [hdrop, ih]

/-- The bytes of a character that was read. -/
theorem bytes_of_decodeChar {c : Char} (h : bs.toByteArray.utf8DecodeChar? 0 = some c) :
    bs = String.utf8EncodeChar c ++ bs.drop c.utf8Size := by
  obtain ⟨l, hl⟩ := ByteArray.exists_of_utf8DecodeChar?_eq_some h
  have hlist : bs = String.utf8EncodeChar c ++ l.data.toList := by
    have hdata := congrArg (fun b : ByteArray => b.data.toList) hl
    simpa using hdata
  rw [hlist, ← String.length_utf8EncodeChar c, List.drop_left]

theorem asciiBytes_drop (n : ℕ) (bs : List UInt8) : asciiBytes (bs.drop n) ≤ asciiBytes bs :=
  (List.drop_sublist n bs).countP_le

theorem asciiChars_decodeLossy (bs : List UInt8) : asciiChars (decodeLossy bs) ≤ asciiBytes bs := by
  fun_induction decodeLossy bs with
  | case1 => simp [asciiChars]
  | case2 b bs c hc ih =>
    rw [asciiChars_cons]
    have hbytes := congrArg asciiBytes (bytes_of_decodeChar hc)
    rw [asciiBytes_append, asciiBytes_utf8EncodeChar] at hbytes
    omega
  | case3 b bs hc ih =>
    have hdrop := asciiBytes_drop (brokenLen (b :: bs)) (b :: bs)
    have hmark : ¬ '\uFFFD'.toNat < 128 := by decide
    rw [asciiChars_cons, if_neg hmark]
    omega

/-! ## Form values -/

theorem asciiChars_plusToSpace (cs : List Char) : asciiChars (plusToSpace cs) = asciiChars cs := by
  unfold asciiChars plusToSpace
  rw [List.countP_map]
  refine List.countP_congr fun c _ => ?_
  by_cases hc : c = '+'
  · subst hc
    simp
  · simp [hc]

theorem hexValue_plusToSpace (c : Char) : hexValue (if c = '+' then ' ' else c) = hexValue c := by
  by_cases hc : c = '+'
  · subst hc
    decide
  · rw [if_neg hc]

theorem hasEscape_plusToSpace (cs : List Char) : hasEscape (plusToSpace cs) = hasEscape cs := by
  unfold plusToSpace
  fun_induction hasEscape cs with
  | case1 a b rest ih =>
    have hpercent : (if '%' = '+' then ' ' else '%') = '%' := by decide
    rw [List.map_cons, List.map_cons, List.map_cons, hpercent] at *
    rw [hasEscape, hexValue_plusToSpace, hexValue_plusToSpace, ih]
  | case2 c rest hno ih =>
    rw [← ih, List.map_cons, hasEscape]
    intro a b rest' hc hrest
    -- a `%` is where it was, and two characters follow it where two did
    have hc' : c = '%' := by
      by_cases hplus : c = '+'
      · rw [if_pos hplus] at hc
        cases hc
      · rwa [if_neg hplus] at hc
    obtain ⟨a', tail, rfl, -, htail⟩ := List.map_eq_cons_iff.1 hrest
    obtain ⟨b', tail', rfl, -, -⟩ := List.map_eq_cons_iff.1 htail
    exact hno a' b' tail' hc' rfl
  | case3 => rfl

theorem plusToSpace_self (h : '+' ∉ cs) : plusToSpace cs = cs := by
  refine (List.map_congr_left fun c hc => if_neg ?_).trans (List.map_id' cs)
  rintro rfl
  exact h hc

theorem ascii_formDecode (cs : List Char) : asciiChars (formDecode cs) ≤ asciiChars cs := by
  have hdecode := (asciiBytes_percentDecode (plusToSpace cs)).1
  rw [asciiChars_plusToSpace] at hdecode
  exact (asciiChars_decodeLossy _).trans hdecode

/-- **A value decodes to itself where it has no escape and no `+`.** -/
theorem formDecode_self_iff : formDecode cs = cs ↔ '+' ∉ cs ∧ hasEscape cs = false := by
  constructor
  · intro h
    have hesc : hasEscape cs = false := by
      rw [← Bool.not_eq_true]
      intro hesc
      have hlt := (asciiBytes_percentDecode (plusToSpace cs)).2 (by rw [hasEscape_plusToSpace, hesc])
      have hle := asciiChars_decodeLossy (percentDecode (plusToSpace cs))
      have hself : asciiChars (decodeLossy (percentDecode (plusToSpace cs))) = asciiChars cs :=
        congrArg asciiChars h
      rw [asciiChars_plusToSpace] at hlt
      omega
    refine ⟨fun hplus => ?_, hesc⟩
    -- the text is read as it stands, and its `+` as a blank
    rw [formDecode, percentDecode_plain (by rw [hasEscape_plusToSpace, hesc]), decodeLossy_utf8] at h
    have hmem : '+' ∈ plusToSpace cs := by
      rw [h]
      exact hplus
    obtain ⟨c, -, hc⟩ := List.mem_map.1 hmem
    split at hc
    · cases hc
    · rename_i hne
      exact hne hc
  · rintro ⟨hplus, hesc⟩
    rw [formDecode, plusToSpace_self hplus, percentDecode_plain hesc, decodeLossy_utf8]

/-- A text cut at an ASCII character has fewer of them. -/
theorem asciiChars_takeWhile_lt {p : Char → Bool} {c : Char} (hc : c ∈ cs) (hp : p c = false) (hascii : c.toNat < 128) :
    asciiChars (cs.takeWhile p) < asciiChars cs := by
  have hsplit : asciiChars cs = asciiChars (cs.takeWhile p) + asciiChars (cs.dropWhile p) := by
    unfold asciiChars
    rw [← List.countP_append, List.takeWhile_append_dropWhile]
  have hdrop : c ∈ cs.dropWhile p := by
    rw [← List.takeWhile_append_dropWhile (p := p) (l := cs), List.mem_append] at hc
    refine hc.resolve_left fun htake => ?_
    have := List.mem_takeWhile_imp htake
    rw [hp] at this
    cases this
  have hpos : 0 < asciiChars (cs.dropWhile p) := List.countP_pos_iff.2 ⟨c, hdrop, by simpa using hascii⟩
  omega

/-- A text that keeps its ASCII characters is not cut at one. -/
theorem uncut_of_asciiChars {ends : Char → Bool} (hascii : ∀ c, ends c = true → c.toNat < 128)
    (h : asciiChars cs ≤ asciiChars (cs.takeWhile fun c => !ends c)) : ∀ c ∈ cs, ends c = false := by
  intro c hc
  rw [← Bool.not_eq_true]
  intro hends
  have hlt := asciiChars_takeWhile_lt (p := fun c => !ends c) hc (by simp [hends]) (hascii c hends)
  omega

theorem takeWhile_uncut {ends : Char → Bool} (h : ∀ c ∈ cs, ends c = false) : cs.takeWhile (fun c => !ends c) = cs := by
  refine List.takeWhile_eq_self_iff.2 fun c hc => ?_
  rw [h c hc]
  rfl

/-- The first piece of a text ends at the first separator. -/
theorem splitOn_first (x : Char) (cs : List Char) :
    ∃ rest, cs.splitOn x = cs.takeWhile (· ≠ x) :: rest ∧ (x ∉ cs → rest = []) := by
  have hplain : ∀ {l : List Char}, x ∉ l → ∀ c ∈ l, decide (c ≠ x) = true := by
    intro l hl c hc
    rw [decide_eq_true_eq]
    rintro rfl
    exact hl hc
  by_cases hx : x ∈ cs
  · obtain ⟨pre, post, rfl, hpre⟩ := List.eq_append_cons_of_mem hx
    refine ⟨post.splitOn x, ?_, fun hnot => absurd hx hnot⟩
    rw [List.splitOn_append_cons_self_of_not_mem hpre, List.takeWhile_append_of_pos (hplain hpre),
      List.takeWhile_cons_of_neg (by simp), List.append_nil]
  · refine ⟨[], ?_, fun _ => rfl⟩
    rw [List.splitOn_eq_singleton hx, List.takeWhile_eq_self_iff.2 (hplain hx)]

/-- The first value of a name that starts the form. -/
theorem formValues_first {name : List Char} (value : List Char) (hamp : '&' ∉ name) (heq : '=' ∉ name)
    (hself : formDecode name = name) :
    ∃ rest, formValues name (name ++ '=' :: value) = formDecode (value.takeWhile (· ≠ '&')) :: rest ∧
      ('&' ∉ value → rest = []) := by
  obtain ⟨parts, hparts, hnil⟩ := splitOn_first '&' (name ++ '=' :: value)
  have htake : (name ++ '=' :: value).takeWhile (· ≠ '&') = name ++ '=' :: value.takeWhile (· ≠ '&') := by
    rw [List.takeWhile_append_of_pos, List.takeWhile_cons_of_pos (by decide)]
    intro c hc
    rw [decide_eq_true_eq]
    rintro rfl
    exact hamp hc
  have hpair : formPair (name ++ '=' :: value.takeWhile (· ≠ '&')) =
      (name, formDecode (value.takeWhile (· ≠ '&'))) := by
    rw [formPair, Text.splitOnce_append heq]
    simp only [hself]
  rw [formValues, formPairs, hparts, htake, List.filter_cons_of_pos (by simp), List.map_cons, hpair,
    List.filter_cons_of_pos (by simp), List.map_cons]
  refine ⟨_, rfl, fun hin => ?_⟩
  rw [hnil (by simp [hamp, hin])]
  rfl

end Urlencoded
