import Mathlib.Algebra.Group.Int.Defs
import Mathlib.Logic.Basic

/-!
# Structs read from JSON

JSON values, and how derived readers of structs go about them: fields by name, in any order, unknown ones
passed over and known ones at most once, or the elements of an array in the order of the fields.

* `editFields`: some fields of an object replaced by null, or removed.
* `NullLaw`: for a reader and an edit, where the two edits read alike. `NullLaw.bind` composes it over the
  fields of a struct, `nullLaw_field` and `nullLaw_struct` give it for one field and for a whole struct.
-/

namespace Serde

inductive Json where
  | null
  | bool (b : Bool)
  | int (n : Int)
  | float (text : String)
  | str (s : String)
  | arr (values : List Json)
  | obj (fields : List (String × Json))

variable {α β γ : Type}

/-! ## Readers -/

def readString : Json → Option String
  | .str s => some s
  | _ => none

def readBool : Json → Option Bool
  | .bool b => some b
  | _ => none

/-- A `usize` of 64 bits. -/
def readUsize : Json → Option Nat
  | .int n => if 0 ≤ n ∧ n < 2 ^ 64 then some n.toNat else none
  | _ => none

def readVec (read : Json → Option α) : Json → Option (List α)
  | .arr values => values.mapM read
  | _ => none

def readOption (read : Json → Option α) : Json → Option (Option α)
  | .null => some none
  | value => (read value).map some

/-- Null is read as a missing value. -/
def nullToDefault (missing : α) (read : Json → Option α) (value : Json) : Option α :=
  (readOption read value).map fun x => x.getD missing

/-- The values of a name, in order. -/
def valuesOf (name : String) (fields : List (String × Json)) : List Json :=
  (fields.filter fun field => field.1 = name).map (·.2)

/-- A field of an object: its default where it is missing, and an error where it comes twice. -/
def getField (name : String) (read : Json → Option α) (missing : α) (fields : List (String × Json)) : Option α :=
  match valuesOf name fields with
  | [] => some missing
  | [value] => read value
  | _ => none

/-- An element of an array; where the array has ended, a default or an error. -/
def getItem (index : Nat) (read : Json → Option α) (missing : Option α) (values : List Json) : Option α :=
  match values[index]? with
  | some value => read value
  | none => missing

/-- A derived reader: from an object, or from an array that is not longer than the struct. -/
def readStruct (size : Nat) (ofMap : List (String × Json) → Option α) (ofSeq : List Json → Option α) : Json → Option α
  | .obj fields => ofMap fields
  | .arr values => if values.length ≤ size then ofSeq values else none
  | _ => none

/-! ## Edits -/

/-- The selected fields are replaced by null or, with `drop`, removed; `inner` goes on in the others. -/
def editFields (drop : Bool) (selected : String → Bool) (inner : String → Json → Json) :
    List (String × Json) → List (String × Json)
  | [] => []
  | (key, value) :: rest =>
    if selected key then
      if drop then editFields drop selected inner rest else (key, .null) :: editFields drop selected inner rest
    else (key, inner key value) :: editFields drop selected inner rest

/-- The edit of the fields of a value, if it has fields. -/
def editObject (drop : Bool) (selected : String → Bool) (inner : String → Json → Json) : Json → Json
  | .obj fields => .obj (editFields drop selected inner fields)
  | value => value

/-- An edit of each element, by its index. -/
def editItems (edit : Nat → Json → Json) (index : Nat) : List Json → List Json
  | [] => []
  | value :: rest => edit index value :: editItems edit (index + 1) rest

def editArray (edit : Nat → Json → Json) : Json → Json
  | .arr values => .arr (editItems edit 0 values)
  | value => value

/-! ## The law -/

/-- **Where null reads as absent.** What the reader accepts it still accepts with fields removed; with null in
their place it reads the same where `cond` holds, and refuses otherwise. -/
structure NullLaw (edit : Bool → γ → γ) (read : γ → Option α) (accepts cond : γ → Prop) : Prop where
  accepts_iff : ∀ x, (read x).isSome ↔ accepts x
  removed : ∀ x, accepts x → (read (edit true x)).isSome
  same : ∀ x, accepts x → cond x → read (edit false x) = read (edit true x)
  refused : ∀ x, accepts x → ¬ cond x → read (edit false x) = none

variable {edit : Bool → γ → γ} {accepts accepts' cond cond' : γ → Prop}

/-- The law decides whether the two edits read alike. -/
theorem NullLaw.same_iff {read : γ → Option α} (h : NullLaw edit read accepts cond) {x : γ} (hx : accepts x) :
    read (edit false x) = read (edit true x) ↔ cond x := by
  refine ⟨fun heq => ?_, h.same x hx⟩
  refine Classical.byContradiction fun hcond => ?_
  have hsome := h.removed x hx
  rw [← heq, h.refused x hx hcond] at hsome
  cases hsome

/-- The condition may be said in other words. -/
theorem NullLaw.congr {read : γ → Option α} (h : NullLaw edit read accepts cond)
    (hcond : ∀ x, accepts x → (cond x ↔ cond' x)) : NullLaw edit read accepts cond' where
  accepts_iff := h.accepts_iff
  removed := h.removed
  same x hx hc := h.same x hx ((hcond x hx).2 hc)
  refused x hx hc := h.refused x hx fun hc' => hc ((hcond x hx).1 hc')

/-- A reader that only returns. -/
theorem nullLaw_some (a : α) : NullLaw edit (fun _ => some a) (fun _ => True) fun _ => True where
  accepts_iff _ := by simp
  removed _ _ := rfl
  same _ _ _ := rfl
  refused _ _ h := absurd trivial h

/-- **One reader after another**, on the same value. -/
theorem NullLaw.bind {read : γ → Option α} {next : α → γ → Option β} (h : NullLaw edit read accepts cond)
    (hnext : ∀ a, NullLaw edit (next a) accepts' cond') :
    NullLaw edit (fun x => read x >>= fun a => next a x) (fun x => accepts x ∧ accepts' x) fun x =>
      cond x ∧ cond' x where
  accepts_iff x := by
    rw [← h.accepts_iff]
    cases hr : read x with
    | none => simp
    | some a => simp [(hnext a).accepts_iff]
  removed x hx := by
    obtain ⟨a, ha⟩ := Option.isSome_iff_exists.1 (h.removed x hx.1)
    simpa [ha] using (hnext a).removed x hx.2
  same x hx hc := by
    obtain ⟨a, ha⟩ := Option.isSome_iff_exists.1 (h.removed x hx.1)
    simpa [h.same x hx.1 hc.1, ha] using (hnext a).same x hx.2 hc.2
  refused x hx hc := by
    obtain ⟨a, ha⟩ := Option.isSome_iff_exists.1 (h.removed x hx.1)
    by_cases hc1 : cond x
    · -- the first part reads alike, so the second refuses
      have hc2 : ¬ cond' x := fun hc2 => hc ⟨hc1, hc2⟩
      simpa [h.same x hx.1 hc1, ha] using (hnext a).refused x hx.2 hc2
    · simp [h.refused x hx.1 hc1]

/-- A value that no edit changes. -/
theorem nullLaw_id {read : γ → Option α} :
    NullLaw (fun _ x => x) read (fun x => (read x).isSome) fun _ => True where
  accepts_iff _ := Iff.rfl
  removed _ h := h
  same _ _ _ := rfl
  refused _ _ h := absurd trivial h

/-! ## Null for missing -/

variable {read : Json → Option α} {missing : α} {value : Json}

theorem nullToDefault_null : nullToDefault missing read .null = some missing := rfl

theorem nullToDefault_of_ne (h : value ≠ .null) : nullToDefault missing read value = read value := by
  unfold nullToDefault
  cases value with
  | null => exact absurd rfl h
  | _ => simp [readOption, Function.comp_def]

/-- A tolerant reader follows the law of its own reader; null is null under the edit. -/
theorem NullLaw.nullToDefault {edit : Bool → Json → Json} {accepts cond : Json → Prop}
    (h : NullLaw edit read accepts cond) (hnull : ∀ drop, edit drop .null = .null)
    (hne : ∀ drop value, value ≠ .null → edit drop value ≠ .null) :
    NullLaw edit (Serde.nullToDefault missing read) (fun value => value = .null ∨ accepts value) fun value =>
      value ≠ .null → cond value := by
  have hcases : ∀ value : Json, value = .null ∨ value ≠ .null := fun value => Classical.em _
  constructor
  · intro value
    rcases hcases value with rfl | hv
    · simp [nullToDefault_null]
    · rw [nullToDefault_of_ne hv, h.accepts_iff]
      simp [hv]
  · intro value hacc
    rcases hcases value with rfl | hv
    · rw [hnull]
      rfl
    · rw [nullToDefault_of_ne (hne true value hv)]
      exact h.removed value (hacc.resolve_left hv)
  · intro value hacc hcond
    rcases hcases value with rfl | hv
    · rw [hnull, hnull]
    · rw [nullToDefault_of_ne (hne false value hv), nullToDefault_of_ne (hne true value hv)]
      exact h.same value (hacc.resolve_left hv) (hcond hv)
  · intro value hacc hcond
    rcases hcases value with rfl | hv
    · exact absurd (fun h => absurd rfl h) hcond
    · rw [nullToDefault_of_ne (hne false value hv)]
      exact h.refused value (hacc.resolve_left hv) fun hc => hcond fun _ => hc

/-! ## One field -/

variable {selected : String → Bool} {inner : Bool → String → Json → Json} {name : String}
  {fields : List (String × Json)}

/-- What an edit does to the values of a name. -/
theorem valuesOf_editFields (drop : Bool) : valuesOf name (editFields drop selected (inner drop) fields) =
    if selected name then if drop then [] else (valuesOf name fields).map fun _ => .null
    else (valuesOf name fields).map (inner drop name) := by
  induction fields with
  | nil => simp [editFields, valuesOf]
  | cons field fields ih =>
    obtain ⟨key, value⟩ := field
    have hcons : ∀ (key : String) (value : Json) (rest : List (String × Json)), valuesOf name ((key, value) :: rest) =
        if key = name then value :: valuesOf name rest else valuesOf name rest := by
      intro key value rest
      by_cases hk : key = name <;> simp [valuesOf, hk]
    rw [editFields, hcons]
    by_cases hk : key = name
    · subst hk
      by_cases hs : selected key = true
      · cases drop <;> simp [hs, hcons, ih]
      · simp [hs, hcons, ih]
    · by_cases hs : selected key = true
      · cases drop <;> simp [hs, hk, hcons, ih]
      · simp [hs, hk, hcons, ih]

/-- The reader of a field accepts it where the field comes at most once and its value is accepted. -/
def FieldAccepts (name : String) (accepts : Json → Prop) (fields : List (String × Json)) : Prop :=
  (valuesOf name fields).length ≤ 1 ∧ ∀ value ∈ valuesOf name fields, accepts value

/-- Where a selected field is there, null is read as missing; elsewhere the condition of its value holds. -/
def FieldCond (name : String) (selected : String → Bool) (tolerant : Prop) (cond : Json → Prop)
    (fields : List (String × Json)) : Prop :=
  (selected name = true → valuesOf name fields ≠ [] → tolerant) ∧
    (selected name = false → ∀ value ∈ valuesOf name fields, cond value)

/-- **The law for one field**, whose reader takes null for missing or refuses it. -/
theorem nullLaw_field {accepts cond : Json → Prop} (h : NullLaw (fun drop => inner drop name) read accepts cond)
    (hnull : read .null = some missing ∨ read .null = none) :
    NullLaw (fun drop => editFields drop selected (inner drop)) (getField name read missing)
      (FieldAccepts name accepts) (FieldCond name selected (read .null = some missing) cond) := by
  unfold FieldAccepts FieldCond
  constructor
  · intro fields
    unfold getField
    cases valuesOf name fields with
    | nil => simp
    | cons value rest =>
      cases rest with
      | nil => simp [h.accepts_iff]
      | cons value' rest => simp
  · rintro fields ⟨hlen, hacc⟩
    unfold getField
    rw [valuesOf_editFields]
    cases hs : selected name with
    | true => rfl
    | false =>
      rcases hv : valuesOf name fields with _ | ⟨value, rest⟩
      · rfl
      · rw [hv] at hlen hacc
        obtain rfl : rest = [] := List.length_eq_zero_iff.1 (by simpa using hlen)
        exact h.removed value (hacc value List.mem_cons_self)
  · rintro fields ⟨hlen, hacc⟩ ⟨hsel, hkeep⟩
    unfold getField
    rw [valuesOf_editFields, valuesOf_editFields]
    cases hs : selected name with
    | true =>
      rcases hv : valuesOf name fields with _ | ⟨value, rest⟩
      · rfl
      · rw [hv] at hlen hsel
        obtain rfl : rest = [] := List.length_eq_zero_iff.1 (by simpa using hlen)
        exact hsel hs (List.cons_ne_nil _ _)
    | false =>
      rcases hv : valuesOf name fields with _ | ⟨value, rest⟩
      · rfl
      · rw [hv] at hlen hacc hkeep
        obtain rfl : rest = [] := List.length_eq_zero_iff.1 (by simpa using hlen)
        exact h.same value (hacc value List.mem_cons_self) (hkeep hs value List.mem_cons_self)
  · rintro fields ⟨hlen, hacc⟩ hcond
    unfold getField
    rw [valuesOf_editFields]
    cases hs : selected name with
    | true =>
      rcases hv : valuesOf name fields with _ | ⟨value, rest⟩
      · refine absurd ⟨fun _ hne => absurd hv hne, fun hf => ?_⟩ hcond
        rw [hs] at hf
        cases hf
      · rw [hv] at hlen
        obtain rfl : rest = [] := List.length_eq_zero_iff.1 (by simpa using hlen)
        refine hnull.resolve_left fun htolerant => hcond ⟨fun _ _ => htolerant, fun hf => ?_⟩
        rw [hs] at hf
        cases hf
    | false =>
      have hfree : ¬ ∀ value ∈ valuesOf name fields, cond value := by
        intro hall
        refine hcond ⟨fun ht => ?_, fun _ => hall⟩
        rw [hs] at ht
        cases ht
      rcases hv : valuesOf name fields with _ | ⟨value, rest⟩
      · rw [hv] at hfree
        exact absurd (fun _ hmem => absurd hmem List.not_mem_nil) hfree
      · rw [hv] at hlen hacc hfree
        obtain rfl : rest = [] := List.length_eq_zero_iff.1 (by simpa using hlen)
        refine h.refused value (hacc value List.mem_cons_self) fun hc => hfree fun value' hmem => ?_
        rw [List.mem_singleton.1 hmem]
        exact hc

/-- A field whose reader takes null for missing, and whose value reads alike under both edits. -/
theorem nullLaw_tolerant {accepts cond : Json → Prop} (h : NullLaw (fun drop => inner drop name) read accepts cond)
    (hnull : read .null = some missing) :
    NullLaw (fun drop => editFields drop selected (inner drop)) (getField name read missing)
      (FieldAccepts name accepts) fun fields => selected name = false → ∀ value ∈ valuesOf name fields, cond value :=
  (nullLaw_field h (.inl hnull)).congr fun _ _ => ⟨fun hc => hc.2, fun hc => ⟨fun _ _ => hnull, hc⟩⟩

/-- A field whose reader refuses null. -/
theorem nullLaw_strict {accepts cond : Json → Prop} (h : NullLaw (fun drop => inner drop name) read accepts cond)
    (hnull : read .null = none) :
    NullLaw (fun drop => editFields drop selected (inner drop)) (getField name read missing)
      (FieldAccepts name accepts) fun fields => (selected name = true → valuesOf name fields = []) ∧
        (selected name = false → ∀ value ∈ valuesOf name fields, cond value) := by
  refine (nullLaw_field h (.inr hnull)).congr fun fields _ => and_congr_left' (forall_congr' fun _ => ?_)
  rw [hnull]
  constructor
  · intro hc
    exact Classical.byContradiction fun hne => absurd (hc hne) (by simp)
  · exact fun hnil hne => absurd hnil hne

/-! ## Arrays and structs -/

/-- Elements that read alike under both edits make arrays that do. -/
theorem nullLaw_array {edit : Bool → Nat → Json → Json} {accepts : Json → Prop}
    (h : ∀ index, NullLaw (fun drop => edit drop index) read accepts fun _ => True) :
    NullLaw (fun drop => editArray (edit drop)) (readVec read) (fun value => (readVec read value).isSome)
      fun _ => True := by
  have hitems : ∀ (values : List Json) (index : Nat), (values.mapM read).isSome →
      ((editItems (edit true) index values).mapM read).isSome ∧
        (editItems (edit false) index values).mapM read = (editItems (edit true) index values).mapM read := by
    intro values
    induction values with
    | nil => exact fun _ _ => ⟨rfl, rfl⟩
    | cons value rest ih =>
      intro index hsome
      obtain ⟨all, hall⟩ := Option.isSome_iff_exists.1 hsome
      simp only [List.mapM_cons, Option.bind_eq_bind, Option.bind_eq_some_iff] at hall
      obtain ⟨a, ha, as, has, -⟩ := hall
      have hacc : accepts value := ((h index).accepts_iff value).1 (by rw [ha]; rfl)
      obtain ⟨hrest, hsame⟩ := ih (index + 1) (by rw [has]; rfl)
      obtain ⟨b, hb⟩ := Option.isSome_iff_exists.1 ((h index).removed value hacc)
      obtain ⟨bs, hbs⟩ := Option.isSome_iff_exists.1 hrest
      refine ⟨?_, ?_⟩
      · simp [editItems, hb, hbs]
      · simp [editItems, (h index).same value hacc trivial, hsame]
  constructor
  · exact fun _ => Iff.rfl
  · intro value hsome
    cases value with
    | arr values => exact (hitems values 0 hsome).1
    | _ => exact hsome
  · intro value hsome _
    cases value with
    | arr values => exact (hitems values 0 hsome).2
    | _ => rfl
  · exact fun _ _ hfalse => absurd trivial hfalse

/-- **The law for a struct**, from that for its fields. -/
theorem nullLaw_struct {size : Nat} {ofMap : List (String × Json) → Option α} {ofSeq : List Json → Option α}
    {accepts cond : List (String × Json) → Prop}
    (h : NullLaw (fun drop => editFields drop selected (inner drop)) ofMap accepts cond) :
    NullLaw (fun drop => editObject drop selected (inner drop)) (readStruct size ofMap ofSeq)
      (fun value => (readStruct size ofMap ofSeq value).isSome) fun value => ∀ fields, value = .obj fields →
        cond fields := by
  constructor
  · exact fun _ => Iff.rfl
  · intro value hsome
    cases value with
    | obj fields => exact h.removed fields ((h.accepts_iff fields).1 hsome)
    | _ => exact hsome
  · intro value hsome hcond
    cases value with
    | obj fields => exact h.same fields ((h.accepts_iff fields).1 hsome) (hcond fields rfl)
    | _ => rfl
  · intro value hsome hcond
    cases value with
    | obj fields =>
      refine h.refused fields ((h.accepts_iff fields).1 hsome) fun hc => hcond fun fields' heq => ?_
      cases heq
      exact hc
    | _ => exact absurd (fun fields heq => by cases heq) hcond

end Serde
