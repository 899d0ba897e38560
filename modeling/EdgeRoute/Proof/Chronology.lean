import EdgeRoute.Lib.Rfc3339
import EdgeRoute.Proof.ConfigChange
import EdgeRoute.Proof.Stored

/-!
# The order of a listing

`list_mappings` orders by the text of `created_at`. Two texts of one second
compare by their fractions, which are of different lengths.

* `utcText_lt`, `utcText_gt`: how the texts of two times compare.
* `chronological_iff`: **the stores whose listing is in the order of time.**
* `listing_out_of_order`: a mapping made on the second is listed after one made half a second later.
-/

namespace EdgeRoute

open Effect

variable {C : Codec} {m m' : Mapping} {row row' : Row} {db db' : Db} {t t' : OffsetDateTime}

/-! ## Times and their texts -/

namespace OffsetDateTime

/-- The second of a UTC time, counted from the start of year 0. -/
def second (t : OffsetDateTime) : ℕ := (t.unixNanos / 1000000000 + 62167219200).toNat

/-- The nanoseconds within the second. -/
def nanos (t : OffsetDateTime) : ℕ := (t.unixNanos % 1000000000).toNat

/-- The years 0 to 9999, which are all that RFC 3339 can write. -/
def InRange (t : OffsetDateTime) : Prop :=
  0 ≤ t.unixNanos / 1000000000 + 62167219200 ∧ t.unixNanos / 1000000000 + 62167219200 < 315569520000

/-- The RFC 3339 text of a UTC time. -/
def utcText (t : OffsetDateTime) : String :=
  String.ofList (Rfc3339.timeText t.second (Rfc3339.fractionText t.nanos))

/-- The digits of the fraction, without trailing zeros. -/
def fraction (t : OffsetDateTime) : List Char := Rfc3339.fraction 9 t.nanos

end OffsetDateTime

/-- **The `time` crate on UTC times**: what it writes for one is its text. -/
def FormatsUtc (C : Codec) : Prop :=
  ∀ t s, t.offsetSecs = 0 → C.formatRfc3339 t = .ok s → t.InRange ∧ s = t.utcText

/-- Two times of one second, the digits of the earlier a prefix of the later's. -/
def Misordered (t t' : OffsetDateTime) : Prop :=
  t.second = t'.second ∧ t.nanos < t'.nanos ∧ t.fraction <+: t'.fraction

instance (t t' : OffsetDateTime) : Decidable (Misordered t t') := inferInstanceAs (Decidable (_ ∧ _ ∧ _))

theorem nanos_lt (t : OffsetDateTime) : t.nanos < 10 ^ 9 := by
  have hlt : t.unixNanos % 1000000000 < 1000000000 := Int.emod_lt_of_pos _ (by omega)
  unfold OffsetDateTime.nanos
  omega

/-- The order of times by their seconds, then by what is left. -/
theorem unixNanos_lt_iff (hr : t.InRange) (hr' : t'.InRange) : t.unixNanos < t'.unixNanos ↔
    t.second < t'.second ∨ (t.second = t'.second ∧ t.nanos < t'.nanos) := by
  unfold OffsetDateTime.InRange at hr hr'
  unfold OffsetDateTime.second OffsetDateTime.nanos
  omega

theorem unixNanos_of_misordered (hr : t.InRange) (hr' : t'.InRange) (h : Misordered t t') :
    t.unixNanos < t'.unixNanos := (unixNanos_lt_iff hr hr').2 (.inr ⟨h.1, h.2.1⟩)

/-- Texts of times that are not misordered compare as the times do. -/
theorem utcText_lt (hr : t.InRange) (hr' : t'.InRange) (h : t.unixNanos < t'.unixNanos)
    (hm : ¬ Misordered t t') : t.utcText < t'.utcText := by
  have hbound : t'.second < 315569520000 := by
    unfold OffsetDateTime.InRange at hr'
    unfold OffsetDateTime.second
    omega
  rw [String.lt_iff_toList_lt, OffsetDateTime.utcText, OffsetDateTime.utcText, String.toList_ofList,
    String.toList_ofList]
  apply Rfc3339.timeText_lt hbound
  rcases (unixNanos_lt_iff hr hr').1 h with hs | ⟨hs, hn⟩
  · exact .inl hs
  · exact .inr ⟨hs, ((Rfc3339.fractionText_lt_iff hn (nanos_lt t')).1).2 fun hp => hm ⟨hs, hn, hp⟩⟩

/-- Those of misordered times compare the other way. -/
theorem utcText_gt (hr : t.InRange) (h : Misordered t t') : t'.utcText < t.utcText := by
  have hbound : t.second < 315569520000 := by
    unfold OffsetDateTime.InRange at hr
    unfold OffsetDateTime.second
    omega
  obtain ⟨hs, hn, hp⟩ := h
  rw [String.lt_iff_toList_lt, OffsetDateTime.utcText, OffsetDateTime.utcText, String.toList_ofList,
    String.toList_ofList]
  exact Rfc3339.timeText_lt hbound (.inr ⟨hs.symm, (Rfc3339.fractionText_lt_iff hn (nanos_lt t')).2 hp⟩)

/-! ## The listing -/

/-- In the order of creation, ties broken by id. -/
def Earlier (m m' : Mapping) : Prop :=
  m.createdAt.unixNanos < m'.createdAt.unixNanos ∨
    (m.createdAt.unixNanos = m'.createdAt.unixNanos ∧ m.id.val ≤ m'.id.val)

instance : Std.Total Row.Before := ⟨fun row row' => by
  rcases lt_trichotomy row.createdAt row'.createdAt with h | h | h
  · exact .inl (.inl h)
  · rcases le_total row.id row'.id with hid | hid
    · exact .inl (.inr ⟨h, hid⟩)
    · exact .inr (.inr ⟨h.symm, hid⟩)
  · exact .inr (.inl h)⟩

instance : IsTrans Row Row.Before := ⟨fun a b c hab hbc => by
  rcases hab with hab | ⟨hab, hid⟩ <;> rcases hbc with hbc | ⟨hbc, hid'⟩
  · exact .inl (hab.trans hbc)
  · exact .inl (hbc ▸ hab)
  · exact .inl (hab ▸ hbc)
  · exact .inr ⟨hab.trans hbc, hid.trans hid'⟩⟩

/-- A row as the store writes it for a mapping made at a UTC time. -/
structure StampedRow (C : Codec) (row : Row) (m : Mapping) : Prop where
  decoded : C.rowToMapping row = .ok m
  id : row.id = m.id.val
  inRange : m.createdAt.InRange
  createdAt : row.createdAt = m.createdAt.utcText

/-- The rows of a reachable store with UTC creation times. -/
theorem stampedRow_of_reachable (hU : FormatsUtc C) (h : Reachable C db) (hr : row ∈ db.mappings.rows)
    (hd : C.rowToMapping row = .ok m) (hutc : m.createdAt.offsetSecs = 0) : StampedRow C row m := by
  obtain ⟨m₀, he⟩ := reachable_encodes h hr
  obtain ⟨created, hc⟩ := reachable_dated h row hr
  have hm : m₀ = m := Except.ok.inj (he.decoded.symm.trans hd)
  have ht : created = m.createdAt :=
    Except.ok.inj ((parseTime_formatTime hc).symm.trans (rowToMapping_ok.1 hd).createdAt)
  have hf : C.formatRfc3339 m.createdAt = .ok row.createdAt := by
    rw [← ht]
    unfold Codec.formatTime at hc
    cases hf : C.formatRfc3339 created with
    | ok s => rw [hf] at hc; cases hc; rfl
    | error e => rw [hf] at hc; cases hc
  obtain ⟨hin, htext⟩ := hU _ _ hutc hf
  exact ⟨hd, hm ▸ he.id, hin, htext⟩

/-- Where no two times are misordered, the order of rows is the order of their mappings. -/
theorem earlier_of_before (hs : StampedRow C row m) (hs' : StampedRow C row' m')
    (hm : ¬ Misordered m'.createdAt m.createdAt) (h : row.Before row') : Earlier m m' := by
  rcases lt_trichotomy m.createdAt.unixNanos m'.createdAt.unixNanos with hlt | heq | hgt
  · exact .inl hlt
  · -- equal times have equal texts, so the ids were compared
    have htext : row.createdAt = row'.createdAt := by
      rw [hs.createdAt, hs'.createdAt, OffsetDateTime.utcText, OffsetDateTime.utcText, OffsetDateTime.second,
        OffsetDateTime.second, OffsetDateTime.nanos, OffsetDateTime.nanos, heq]
    rcases h with h | ⟨-, hid⟩
    · exact absurd htext h.ne
    · rw [hs.id, hs'.id] at hid
      exact .inr ⟨heq, hid⟩
  · have htext := utcText_lt hs'.inRange hs.inRange hgt hm
    rw [← hs.createdAt, ← hs'.createdAt] at htext
    rcases h with h | ⟨h, -⟩
    · exact absurd h (lt_asymm htext)
    · exact absurd h htext.ne'

/-- Misordered mappings are listed in the wrong order, wherever they stand. -/
theorem not_earlier_of_misordered (hs : StampedRow C row m) (hs' : StampedRow C row' m')
    (hm : Misordered m.createdAt m'.createdAt) : ¬ row.Before row' ∧ ¬ Earlier m' m := by
  have htext := utcText_gt hs.inRange hm
  rw [← hs.createdAt, ← hs'.createdAt] at htext
  have htime := unixNanos_of_misordered hs.inRange hs'.inRange hm
  constructor
  · intro h
    rcases h with h | ⟨h, -⟩
    · exact lt_asymm htext h
    · exact htext.ne' h
  · intro h
    rcases h with h | ⟨h, -⟩ <;> omega

/-- What holds between the entries of one list passes to those of another, place by place. -/
theorem pairwise_of_forall₂ {α β : Type} {R : α → β → Prop} {S : α → α → Prop} {T : β → β → Prop} {l : List α}
    {l' : List β} (h : List.Forall₂ R l l') (hs : l.Pairwise S)
    (hT : ∀ a ∈ l, ∀ b ∈ l, ∀ c d, R a c → R b d → S a b → T c d) : l'.Pairwise T := by
  obtain ⟨hlen, hR⟩ := List.forall₂_iff_get.1 h
  rw [List.pairwise_iff_getElem] at hs ⊢
  intro i j hi hj hij
  have hi' : i < l.length := hlen ▸ hi
  have hj' : j < l.length := hlen ▸ hj
  exact hT l[i] (List.getElem_mem hi') l[j] (List.getElem_mem hj') l'[i] l'[j] (hR i hi' hi) (hR j hj' hj)
    (hs i j hi' hj' hij)

/-- Two entries of a list stand one before the other. -/
theorem either_of_pairwise {α : Type} {R : α → α → Prop} {l : List α} {a b : α} (h : l.Pairwise R) (ha : a ∈ l)
    (hb : b ∈ l) (hne : a ≠ b) : R a b ∨ R b a := by
  rw [List.pairwise_iff_getElem] at h
  obtain ⟨i, hi, rfl⟩ := List.getElem_of_mem ha
  obtain ⟨j, hj, rfl⟩ := List.getElem_of_mem hb
  rcases lt_trichotomy i j with hij | rfl | hij
  · exact .inl (h i j hi hj hij)
  · exact absurd rfl hne
  · exact .inr (h j i hj hi hij)

/-- The listing a call returns is the decoded table, in the order of its rows. -/
theorem listMappings_ok {ms : List Mapping} : (∃ tr db', (listMappings C).Run storeEnv db tr db' (.ok ms)) ↔
    decodeRows C db.listed = .ok ms := by
  unfold listMappings sql
  constructor
  · intro ⟨tr, db', h⟩
    rw [Prog.bind_eq, Prog.bind_call, Prog.run_call] at h
    obtain ⟨r, db₁, tr₁, rfl, hE, hr⟩ := h
    rcases hE with hE | ⟨message, rfl, rfl⟩
    · cases hE
      exact (Prog.run_ofExcept.1 hr).2.2.symm
    · cases (Prog.run_fail.1 hr).2.2
  · intro h
    refine ⟨[⟨.sql .selectMappings, .ok db.listed⟩], db, ?_⟩
    rw [Prog.bind_eq, Prog.bind_call, Prog.run_call]
    exact ⟨.ok db.listed, db, [], rfl, .inl rfl, Prog.run_ofExcept.2 ⟨rfl, rfl, h.symm⟩⟩

/-- Every listing that the store returns is in the order of creation. -/
def ListsInOrder (C : Codec) (db : Db) : Prop :=
  ∀ tr db' ms, (listMappings C).Run storeEnv db tr db' (.ok ms) → ms.Pairwise Earlier

/-- **The listing is in the order of time exactly where** no two stored mappings were made in
one second with the fraction of the earlier a prefix of the later's. -/
theorem chronological_iff (hU : FormatsUtc C) (hr : Reachable C db)
    (hutc : ∀ m, db.Stores C m → m.createdAt.offsetSecs = 0) : ListsInOrder C db ↔
      ∀ m m', db.Stores C m → db.Stores C m' → ¬ Misordered m.createdAt m'.createdAt := by
  have hmem : ∀ {row : Row}, row ∈ db.listed ↔ row ∈ db.mappings.rows := List.mem_insertionSort Row.Before
  have hstamp : ∀ {row m}, row ∈ db.listed → C.rowToMapping row = .ok m → StampedRow C row m := fun h hd =>
    stampedRow_of_reachable hU hr (hmem.1 h) hd (hutc _ ⟨_, hmem.1 h, hd⟩)
  have hsorted : db.listed.Pairwise Row.Before := List.pairwise_insertionSort Row.Before _
  obtain ⟨ms, hms⟩ := reachable_listing hr
  have hdec := decodeRows_forall₂.1 hms
  constructor
  · intro hlist m m' ⟨row, hrow, hm⟩ ⟨row', hrow', hm'⟩ hmis
    obtain ⟨tr, db', hrun⟩ := listMappings_ok.2 hms
    -- the order of rows and the order of mappings, at the places of the two
    have hboth : db.listed.Pairwise fun a b => a.Before b ∧
        ∀ c d, C.rowToMapping a = .ok c → C.rowToMapping b = .ok d → Earlier c d := by
      refine hsorted.and (pairwise_of_forall₂ hdec.flip (hlist tr db' ms hrun) ?_)
      intro c _ d _ a b hac hbd hcd c' d' hac' hbd'
      rw [← Except.ok.inj (hac.symm.trans hac'), ← Except.ok.inj (hbd.symm.trans hbd')]
      exact hcd
    have hne : row ≠ row' := by
      intro heq
      rw [heq, hm'] at hm
      have := hmis.2.1
      rw [Except.ok.inj hm] at this
      exact lt_irrefl _ this
    obtain ⟨hrows, hmaps⟩ := not_earlier_of_misordered (hstamp (hmem.2 hrow) hm) (hstamp (hmem.2 hrow') hm') hmis
    rcases either_of_pairwise hboth (hmem.2 hrow) (hmem.2 hrow') hne with h | h
    · exact hrows h.1
    · exact hmaps (h.2 _ _ hm' hm)
  · intro hgood tr db' ms' hrun
    have hms' := listMappings_ok.1 ⟨tr, db', hrun⟩
    rw [hms] at hms'
    cases hms'
    refine pairwise_of_forall₂ hdec hsorted ?_
    intro a ha b hb c d hac hbd hab
    have hstores : db.Stores C c := ⟨a, hmem.1 ha, hac⟩
    have hstores' : db.Stores C d := ⟨b, hmem.1 hb, hbd⟩
    exact earlier_of_before (hstamp ha hac) (hstamp hb hbd) (hgood _ _ hstores' hstores) hab

/-! ## Two mappings of one second -/

/-- A time `n` nanoseconds after the sample time. -/
def sampleTimeAfter (n : ℤ) : OffsetDateTime := ⟨sampleTime.unixNanos + n, 0⟩

/-- Times of one second: on it, half a second later, and a quarter after that. -/
def stamps : List (OffsetDateTime × String) :=
  [(sampleTime, "2026-01-01T00:00:00Z"), (sampleTimeAfter 500000000, "2026-01-01T00:00:00.5Z"),
    (sampleTimeAfter 750000000, "2026-01-01T00:00:00.75Z")]

theorem stamps_utc : ∀ p ∈ stamps, p.1.offsetSecs = 0 ∧ p.1.InRange ∧ p.2 = p.1.utcText := by
  unfold OffsetDateTime.InRange
  decide +kernel

/-- The `time` crate on the sample times. -/
def stampFormat (t : OffsetDateTime) : Except String String :=
  match stamps.find? fun p => p.1 = t with
  | some p => .ok p.2
  | none => .error "not a sample"

def stampParse (text : String) : Except String OffsetDateTime :=
  match stamps.find? fun p => p.2 = text with
  | some p => .ok p.1
  | none => .error "not a sample"

theorem stampFormat_mem {text : String} (h : stampFormat t = .ok text) : (t, text) ∈ stamps := by
  unfold stampFormat at h
  split at h
  · rename_i p hf
    cases h
    have ht : p.1 = t := by simpa using List.find?_some hf
    rw [← ht]
    exact List.mem_of_find?_eq_some hf
  · cases h

theorem stampParse_mem {text : String} (h : stampParse text = .ok t) : (t, text) ∈ stamps := by
  unfold stampParse at h
  split at h
  · rename_i p hf
    cases h
    have ht : p.2 = text := by simpa using List.find?_some hf
    rw [← ht]
    exact List.mem_of_find?_eq_some hf
  · cases h

theorem stampParse_stamps : ∀ p ∈ stamps, stampParse p.2 = .ok p.1 := by decide

def stampCodec : Codec :=
  { sampleCodec with
    formatRfc3339 := stampFormat
    parseRfc3339 := stampParse
    rfc3339_inverse := fun h => stampParse_stamps _ (stampFormat_mem h) }

theorem formatsUtc_stamp : FormatsUtc stampCodec := by
  intro t s _ h
  exact (stamps_utc _ (stampFormat_mem h)).2

theorem stamp_utc (h : db.Stores stampCodec m) : m.createdAt.offsetSecs = 0 := by
  obtain ⟨row, -, hd⟩ := h
  have hc := (rowToMapping_ok.1 hd).createdAt
  unfold Codec.parseTime at hc
  cases hp : stampCodec.parseRfc3339 row.createdAt with
  | ok t =>
    rw [hp] at hc
    cases hc
    exact (stamps_utc _ (stampParse_mem hp)).1
  | error e => rw [hp] at hc; cases hc

/-- A config and two services made at the given times. -/
def stampCalls (t t' : OffsetDateTime) (i : ℕ) : WriteCall :=
  [.setConfig sampleConfig, .edit (.insert { samplePortForward with createdAt := t }),
    .edit (.insert { sampleDns with createdAt := t' })].getD i (.setConfig sampleConfig)

@[irreducible] def stampDb (t t' : OffsetDateTime) : Db :=
  (steps sampleHandler [0, 1, 1, 1, 2, 2, 2] ([], fun i => (stampCalls t t' i).prog stampCodec, Db.fresh)).2.2

theorem stampDb_reachable (t t' : OffsetDateTime) : Reachable stampCodec (stampDb t t') := by
  unfold stampDb
  exact ⟨stampCalls t t', _, _, steps_reach sampleHandler_env _ _ .init⟩

/-- The creation times that a store holds. -/
def Db.created (C : Codec) (db : Db) : List (Option OffsetDateTime) :=
  db.mappings.rows.map fun row => (C.rowToMapping row).toOption.map (·.createdAt)

theorem mem_created (h : db.Stores C m) : some m.createdAt ∈ db.created C := by
  obtain ⟨row, hrow, hd⟩ := h
  exact List.mem_map.2 ⟨row, hrow, by rw [hd]; rfl⟩

/-- Half a second and three quarters of one: listed as they were made. -/
theorem chronological_iff_halves :
    (stampDb (sampleTimeAfter 500000000) (sampleTimeAfter 750000000)).mappings.rows.length = 2 ∧
      ListsInOrder stampCodec (stampDb (sampleTimeAfter 500000000) (sampleTimeAfter 750000000)) := by
  have hcreated : (stampDb (sampleTimeAfter 500000000) (sampleTimeAfter 750000000)).created stampCodec =
      [some (sampleTimeAfter 500000000), some (sampleTimeAfter 750000000)] := by
    unfold stampDb
    decide +kernel
  have hlength := congrArg List.length hcreated
  rw [Db.created, List.length_map] at hlength
  refine ⟨hlength, ?_⟩
  refine (chronological_iff formatsUtc_stamp (stampDb_reachable _ _) fun m hm => stamp_utc hm).2 ?_
  intro m m' hm hm'
  have ht := mem_created hm
  have ht' := mem_created hm'
  rw [hcreated] at ht ht'
  have hgood : ∀ t ∈ [sampleTimeAfter 500000000, sampleTimeAfter 750000000],
      ∀ t' ∈ [sampleTimeAfter 500000000, sampleTimeAfter 750000000], ¬ Misordered t t' := by decide +kernel
  exact hgood _ (by simpa using ht) _ (by simpa using ht')

/-- **A listing out of order**: the mapping made on the second comes after the one made half a
second later, as `Z` stands after the dot. -/
theorem listing_out_of_order : ¬ ∀ (C : Codec) (db : Db), FormatsUtc C → Reachable C db →
    (∀ m, db.Stores C m → m.createdAt.offsetSecs = 0) → ListsInOrder C db := by
  intro h
  have hlist := h stampCodec (stampDb sampleTime (sampleTimeAfter 500000000)) formatsUtc_stamp
    (stampDb_reachable _ _) fun m hm => stamp_utc hm
  have hdec : decodeRows stampCodec (stampDb sampleTime (sampleTimeAfter 500000000)).listed =
      .ok [{ sampleDns with createdAt := sampleTimeAfter 500000000 }, samplePortForward] := by
    unfold stampDb
    decide +kernel
  obtain ⟨tr, db', hrun⟩ := listMappings_ok.2 hdec
  have hpair := hlist tr db' _ hrun
  rw [List.pairwise_pair] at hpair
  rcases hpair with hlt | ⟨heq, -⟩
  · revert hlt
    decide
  · revert heq
    decide

end EdgeRoute
