import EdgeRoute.Proof.Rows

/-!
# The database constraints are the conflict rule

* `guard_iff`: the triggers and the unique indexes together refuse a row beside exactly
  the rows it clashes with.
* `clash_iff`: on stored forms, a clash is a conflict of the Rust rule or a public
  address shared with a one-to-one mapping.
* `refused_iff`: **SQLite aborts an INSERT, a full UPDATE or an enable UPDATE exactly
  when the Rust rule says so.**
-/

namespace EdgeRoute

open Effect

variable {C : Codec} {m m' : Mapping} {row row' new : Row}

/-! ## What the constraints compare -/

/-- **Two rows clash**: both enabled, with a pair of modes and columns that one of the
trigger clauses or one of the indexes speaks about. -/
def Row.Clash (new row : Row) : Prop :=
  new.enabled = 1 ∧ row.enabled = 1 ∧
    ((new.mode = "port_forward_snat" ∧ row.mode = "one_to_one_snat" ∧
        row.edgePrivateIp = new.edgePrivateIp) ∨
      (new.mode = "one_to_one_snat" ∧ row.mode = "port_forward_snat" ∧
        row.edgePrivateIp = new.edgePrivateIp) ∨
      (new.mode = "port_forward_snat" ∧ row.mode = "one_to_one_snat" ∧
        new.publicIp ≠ none ∧ row.publicIp = new.publicIp) ∨
      (new.mode = "one_to_one_snat" ∧ new.publicIp ≠ none ∧ row.publicIp = new.publicIp) ∨
      (new.mode = "one_to_one_snat" ∧ row.mode = "one_to_one_snat" ∧
        (new.edgePrivateIp = row.edgePrivateIp ∨ new.targetIp = row.targetIp)) ∨
      (new.mode = "port_forward_snat" ∧ row.mode = "port_forward_snat" ∧
        new.edgePrivateIp = row.edgePrivateIp ∧ new.protocol = row.protocol ∧
        new.publicPort ≠ none ∧ new.publicPort = row.publicPort))

theorem value_ofText_eq {a b : Option String} :
    (Sql.Value.ofText a).eq (.ofText b) = true ↔ b ≠ none ∧ a = b := by
  cases a <;> cases b <;> simp [Sql.Value.eq, Sql.Value.ofText]

theorem value_ofInt_eq {a b : Option ℤ} :
    (Sql.Value.ofInt a).eq (.ofInt b) = true ↔ a ≠ none ∧ a = b := by
  cases a <;> cases b <;> simp [Sql.Value.eq, Sql.Value.ofInt]

theorem value_text_eq {a b : String} : (Sql.Value.text a).eq (.text b) = true ↔ a = b := by
  simp [Sql.Value.eq]

theorem enabledIn_iff {mode : String} : row.enabledIn mode = true ↔ row.enabled = 1 ∧ row.mode = mode := by
  simp [Row.enabledIn]

/-- The triggers: one of the four clauses finds a row. -/
theorem raiseConflict_ne_none {rows : List Row} : raiseConflict rows new ≠ none ↔
    new.enabled = 1 ∧ ∃ row ∈ rows, row.enabled = 1 ∧
      ((new.mode = "port_forward_snat" ∧ row.mode = "one_to_one_snat" ∧
          row.edgePrivateIp = new.edgePrivateIp) ∨
        (new.mode = "one_to_one_snat" ∧ row.mode = "port_forward_snat" ∧
          row.edgePrivateIp = new.edgePrivateIp) ∨
        (new.mode = "port_forward_snat" ∧ row.mode = "one_to_one_snat" ∧
          new.publicIp ≠ none ∧ row.publicIp = new.publicIp) ∨
        (new.mode = "one_to_one_snat" ∧ new.publicIp ≠ none ∧ row.publicIp = new.publicIp)) := by
  unfold raiseConflict
  simp only [List.any_eq_true, Bool.and_eq_true, enabledIn_iff, beq_iff_eq, Row.samePublicIp,
    value_ofText_eq, Option.isSome_iff_ne_none]
  by_cases h1 : new.enabled = 1
  · simp only [h1, ne_eq, not_true_eq_false, if_false, true_and]
    split_ifs with c1 c2 c3 c4
    · obtain ⟨hm, r, hr, ⟨he, hrm⟩, hp⟩ := c1
      simp only [not_false_eq_true, true_iff]
      exact ⟨r, hr, he, .inl ⟨hm, hrm, hp⟩⟩
    · obtain ⟨hm, r, hr, ⟨he, hrm⟩, hp⟩ := c2
      simp only [not_false_eq_true, true_iff]
      exact ⟨r, hr, he, .inr (.inl ⟨hm, hrm, hp⟩)⟩
    · obtain ⟨hm, -, r, hr, ⟨he, hrm⟩, hp⟩ := c3
      simp only [not_false_eq_true, true_iff]
      exact ⟨r, hr, he, .inr (.inr (.inl ⟨hm, hrm, hp⟩))⟩
    · obtain ⟨hm, -, r, hr, he, hp⟩ := c4
      simp only [not_false_eq_true, true_iff]
      exact ⟨r, hr, he, .inr (.inr (.inr ⟨hm, hp⟩))⟩
    · simp only [not_true_eq_false, false_iff]
      rintro ⟨r, hr, he, ⟨hm, hrm, hp⟩ | ⟨hm, hrm, hp⟩ | ⟨hm, hrm, hn, hp⟩ | ⟨hm, hn, hp⟩⟩
      · exact c1 ⟨hm, r, hr, ⟨he, hrm⟩, hp⟩
      · exact c2 ⟨hm, r, hr, ⟨he, hrm⟩, hp⟩
      · exact c3 ⟨hm, hn, r, hr, ⟨he, hrm⟩, hn, hp⟩
      · exact c4 ⟨hm, hn, r, hr, he, hn, hp⟩
  · simp [h1]

/-- The indexes: one of the four has the entry of the new row already. -/
theorem refusal_ne_none {rows : List Row} : mappingsSchema.refusal rows new ≠ none ↔
    ∃ row ∈ rows, new.enabled = 1 ∧ row.enabled = 1 ∧
      ((new.mode = "one_to_one_snat" ∧ row.mode = "one_to_one_snat" ∧
          (new.edgePrivateIp = row.edgePrivateIp ∨ new.targetIp = row.targetIp ∨
            (new.publicIp ≠ none ∧ row.publicIp = new.publicIp))) ∨
        (new.mode = "port_forward_snat" ∧ row.mode = "port_forward_snat" ∧
          new.edgePrivateIp = row.edgePrivateIp ∧ new.protocol = row.protocol ∧
          new.publicPort ≠ none ∧ new.publicPort = row.publicPort)) := by
  rw [ne_eq, Sql.Table.refusal_none]
  push Not
  simp only [mappingsSchema, List.mem_cons, List.not_mem_nil, or_false, ne_eq, Bool.not_eq_false,
    Sql.UniqueIndex.clash, Bool.and_eq_true]
  constructor
  · rintro ⟨ix, rfl | rfl | rfl | rfl, r, hr, ⟨hn, hr'⟩, hc⟩
    · simp only [portForwardTupleIdx, enabledIn_iff, List.zip_cons_cons, List.all_cons,
        List.zip_nil_left, List.all_nil, Bool.and_true, Bool.and_eq_true, value_text_eq,
        value_ofInt_eq] at hn hr' hc
      exact ⟨r, hr, hn.1, hr'.1, .inr ⟨hn.2, hr'.2, hc⟩⟩
    · simp only [oneToOneTargetIpIdx, enabledIn_iff, List.zip_cons_cons, List.all_cons,
        List.zip_nil_left, List.all_nil, Bool.and_true, value_text_eq] at hn hr' hc
      exact ⟨r, hr, hn.1, hr'.1, .inl ⟨hn.2, hr'.2, .inr (.inl hc)⟩⟩
    · simp only [oneToOnePublicIpIdx, Bool.and_eq_true, enabledIn_iff, List.zip_cons_cons,
        List.all_cons, List.zip_nil_left, List.all_nil, Bool.and_true, value_ofText_eq] at hn hr' hc
      exact ⟨r, hr, hn.1.1, hr'.1.1, .inl ⟨hn.1.2, hr'.1.2, .inr (.inr ⟨hc.2 ▸ hc.1, hc.2.symm⟩)⟩⟩
    · simp only [oneToOneEdgePrivateIpIdx, enabledIn_iff, List.zip_cons_cons, List.all_cons,
        List.zip_nil_left, List.all_nil, Bool.and_true, value_text_eq] at hn hr' hc
      exact ⟨r, hr, hn.1, hr'.1, .inl ⟨hn.2, hr'.2, .inl hc⟩⟩
  · rintro ⟨r, hr, hn, hre, ⟨hm, hrm, he | ht | ⟨hp, hpe⟩⟩ | ⟨hm, hrm, hc⟩⟩
    · refine ⟨_, .inr (.inr (.inr rfl)), r, hr, ?_⟩
      simp [oneToOneEdgePrivateIpIdx, enabledIn_iff, hn, hre, hm, hrm, he, value_text_eq]
    · refine ⟨_, .inr (.inl rfl), r, hr, ?_⟩
      simp [oneToOneTargetIpIdx, enabledIn_iff, hn, hre, hm, hrm, ht, value_text_eq]
    · refine ⟨_, .inr (.inr (.inl rfl)), r, hr, ?_⟩
      simp [oneToOnePublicIpIdx, enabledIn_iff, hn, hre, hm, hrm, hp, hpe, value_ofText_eq,
        Option.isSome_iff_ne_none]
    · refine ⟨_, .inl rfl, r, hr, ?_⟩
      obtain ⟨h1, h2, h3, h4⟩ := hc
      simp [portForwardTupleIdx, enabledIn_iff, hn, hre, hm, hrm, h1, h2, ← h4, h3, value_text_eq,
        value_ofInt_eq]

/-- **The constraints refuse a row beside exactly the rows it clashes with.** -/
theorem guard_iff {rows : List Row} :
    (raiseConflict rows new ≠ none ∨ mappingsSchema.refusal rows new ≠ none) ↔
      ∃ row ∈ rows, new.Clash row := by
  rw [raiseConflict_ne_none, refusal_ne_none]
  constructor
  · rintro (⟨hn, r, hr, he, h⟩ | ⟨r, hr, hn, he, h⟩)
    · rcases h with h | h | h | h
      · exact ⟨r, hr, hn, he, .inl h⟩
      · exact ⟨r, hr, hn, he, .inr (.inl h)⟩
      · exact ⟨r, hr, hn, he, .inr (.inr (.inl h))⟩
      · exact ⟨r, hr, hn, he, .inr (.inr (.inr (.inl h)))⟩
    · rcases h with ⟨hm, hrm, h | h | h⟩ | h
      · exact ⟨r, hr, hn, he, .inr (.inr (.inr (.inr (.inl ⟨hm, hrm, .inl h⟩))))⟩
      · exact ⟨r, hr, hn, he, .inr (.inr (.inr (.inr (.inl ⟨hm, hrm, .inr h⟩))))⟩
      · exact ⟨r, hr, hn, he, .inr (.inr (.inr (.inl ⟨hm, h⟩)))⟩
      · exact ⟨r, hr, hn, he, .inr (.inr (.inr (.inr (.inr h))))⟩
  · rintro ⟨r, hr, hn, he, h | h | h | h | ⟨hm, hrm, h⟩ | h⟩
    · exact .inl ⟨hn, r, hr, he, .inl h⟩
    · exact .inl ⟨hn, r, hr, he, .inr (.inl h)⟩
    · exact .inl ⟨hn, r, hr, he, .inr (.inr (.inl h))⟩
    · exact .inl ⟨hn, r, hr, he, .inr (.inr (.inr h))⟩
    · exact .inr ⟨r, hr, hn, he, .inl ⟨hm, hrm, h.elim .inl fun h => .inr (.inl h)⟩⟩
    · exact .inr ⟨r, hr, hn, he, .inr h⟩

/-! ## The Rust rule on stored forms -/

/-- What the constraints are to keep apart: two enabled mappings that conflict, or
of which one owns the public address of the other. -/
def EnabledClash (m m' : Mapping) : Prop :=
  m.enabled = true ∧ m'.enabled = true ∧ (conflicts m m' = true ∨ sharesPublicIp m m' = true)

theorem EnabledClash.symm (h : EnabledClash m m') : EnabledClash m' m :=
  ⟨h.2.1, h.1, by rw [conflicts_comm m' m, sharesPublicIp_comm m' m]; exact h.2.2⟩

theorem enabled_one (h : Encodes C row m) : row.enabled = 1 ↔ m.enabled = true := by
  rw [h.enabled]; cases m.enabled <;> simp

theorem mode_iff (h : Encodes C row m) :
    (row.mode = "one_to_one_snat" ↔ m.mode = .oneToOneSnat) ∧
      (row.mode = "port_forward_snat" ↔ m.mode = .portForwardSnat) :=
  ⟨(enumString_mode h.mode).1.symm, (enumString_mode h.mode).2.symm⟩

theorem edgePrivateIp_eq_iff (h : Encodes C row m) (h' : Encodes C row' m') :
    row.edgePrivateIp = row'.edgePrivateIp ↔ m.edgePrivateIp = m'.edgePrivateIp := by
  rw [h.edgePrivateIp, h'.edgePrivateIp]
  exact ⟨Ipv4Addr.toText_injective, congrArg _⟩

theorem targetIp_eq_iff (h : Encodes C row m) (h' : Encodes C row' m') :
    row.targetIp = row'.targetIp ↔ m.targetIp = m'.targetIp := by
  rw [h.targetIp, h'.targetIp]
  exact ⟨Ipv4Addr.toText_injective, congrArg _⟩

theorem publicIp_eq_iff (h : Encodes C row m) (h' : Encodes C row' m') :
    (row.publicIp ≠ none ∧ row'.publicIp = row.publicIp) ↔
      (m.publicIp ≠ none ∧ m.publicIp = m'.publicIp) := by
  rw [h.publicIp, h'.publicIp]
  have hinj : Function.Injective (Option.map Ipv4Addr.toText) :=
    Option.map_injective fun _ _ => Ipv4Addr.toText_injective
  rw [hinj.eq_iff, ne_eq, Option.map_eq_none_iff, eq_comm (a := m'.publicIp)]

theorem protocol_eq_iff (h : Encodes C row m) (h' : Encodes C row' m') :
    row.protocol = row'.protocol ↔ m.protocol = m'.protocol := by
  constructor
  · intro he
    have := h.protocol
    rw [he] at this
    exact enumString_injective (by decide) this h'.protocol
  · intro he
    have := h.protocol
    rw [he, h'.protocol] at this
    exact (Except.ok.inj this).symm

theorem publicPort_eq_iff (h : Encodes C row m) (h' : Encodes C row' m') :
    (row.publicPort ≠ none ∧ row.publicPort = row'.publicPort) ↔
      (m.publicPort ≠ none ∧ m.publicPort = m'.publicPort) := by
  rw [h.publicPort, h'.publicPort]
  have hinj : Function.Injective fun p : UInt16 => (p.toNat : ℤ) := fun p p' hp =>
    UInt16.toNat_inj.1 (Int.ofNat_inj.1 hp)
  rw [(Option.map_injective hinj).eq_iff, ne_eq, Option.map_eq_none_iff]

/-- **On stored forms, a clash of rows is a clash of mappings.** The ports of a valid
port forward are not NULL, so the tuple index misses none of them. -/
theorem clash_iff (h : Encodes C new m) (h' : Encodes C row m') (hv : validateMode m = .ok ()) :
    new.Clash row ↔ EnabledClash m m' := by
  unfold Row.Clash EnabledClash
  rw [enabled_one h, enabled_one h', sharesPublicIp_iff]
  simp only [edgePrivateIp_eq_iff h' h, edgePrivateIp_eq_iff h h', targetIp_eq_iff h h',
    publicIp_eq_iff h h', protocol_eq_iff h h', publicPort_eq_iff h h', (mode_iff h).1, (mode_iff h).2,
    (mode_iff h').1, (mode_iff h').2]
  refine and_congr_right fun he => and_congr_right fun he' => ?_
  have hport : m.mode = .portForwardSnat → m.publicPort ≠ none := fun hm => by
    obtain ⟨p, -, hp, -⟩ := portForward_shape hv hm
    simp [hp]
  unfold conflicts
  simp only [he, he', Bool.not_true, Bool.or_self, Bool.false_eq_true, if_false]
  cases hm : m.mode <;> cases hm' : m'.mode <;> simp [hm, hport, eq_comm (a := m'.edgePrivateIp)] <;> tauto

/-! ## The statements -/

/-- The statement is aborted because of `MAPPING_CONSTRAINTS`. -/
def Db.Aborts (db : Db) (s : Stmt) : Prop :=
  ∃ e, (db.exec s).1 = .error e ∧ e.isConstraint = true

/-- **The guarded writes**: an INSERT of `m`, a full UPDATE of a stored row to `m`, and an
enable UPDATE that makes a stored row `m`. -/
inductive Writes (C : Codec) (db : Db) : Stmt → Mapping → Prop where
  | insert {m : Mapping} {row : Row} : C.insertRow m = .ok row → Writes C db (.insertMapping row) m
  | update {m : Mapping} {cols old : Row} : C.updateRow m = .ok cols → old ∈ db.mappings.rows →
      old.id = m.id.val → Writes C db (.updateMapping cols) m
  | enable {m : Mapping} {old : Row} {enabled : Bool} {status : MappingStatus} {t : OffsetDateTime}
      {statusText updatedAt : String} : old ∈ db.mappings.rows → C.rowToMapping old = .ok m →
      enumString MappingStatus.names status = .ok statusText → C.formatTime t = .ok updatedAt →
      Writes C db (.updateEnabled old.id enabled statusText updatedAt)
        { m with enabled := enabled, status := status, updatedAt := t }

/-- The other rows of a guarded write: a new row has them all beside it. -/
def Db.otherRows (db : Db) (m : Mapping) : Stmt → List Row
  | .insertMapping _ => db.mappings.rows
  | _ => db.mappings.others m.id.val

/-- Every row of the table is the stored form of a mapping valid under the config. -/
def ValidRows (C : Codec) (config : EdgeConfig) (db : Db) : Prop :=
  ∀ row ∈ db.mappings.rows, ∃ m, Encodes C row m ∧ validateMapping m config = .ok ()

/-- `NEW.id` is the id of the row that is updated, so the update trigger looks at the
rows that the indexes compare with. -/
theorem rejectConflictUpdate_eq {t : Sql.Table mappingsSchema} {k : String} (hk : new.id = k) :
    rejectConflictUpdate t.rows new = raiseConflict (t.others k) new := by
  subst hk; rfl

/-- A guarded UPDATE aborts exactly when the row it would leave clashes with another one. -/
theorem updateMappings_aborts {db : Db} {k : String} {f : Row → Row} (hf : ∀ row, (f row).id = row.id)
    {old : Row} (ho : old ∈ db.mappings.rows) (hk : old.id = k) :
    (∃ e, (db.updateMappings k f hf true).1 = .error e ∧ e.isConstraint = true) ↔
      ∃ row ∈ db.mappings.others k, (f old).Clash row := by
  have hf' : (f old).id = k := (hf old).trans hk
  rw [← guard_iff, ← rejectConflictUpdate_eq hf']
  refine Iff.trans ?_ (Sql.Table.update_constraint hf (Sql.Table.find_of_mem ho hk))
  unfold Db.updateMappings
  cases db.mappings.update k f hf true <;> simp

/-- On rows that encode valid mappings, a clash with one of them is the Rust rule. -/
theorem exists_clash_iff {rows : List Row} {config : EdgeConfig}
    (hrows : ∀ row ∈ rows, ∃ m', Encodes C row m' ∧ validateMapping m' config = .ok ())
    (hm : validateMapping m config = .ok ()) (hn : Encodes C new m) :
    (∃ row ∈ rows, new.Clash row) ↔ m.enabled = true ∧ ∃ row ∈ rows, ∃ m',
      C.rowToMapping row = .ok m' ∧ m'.enabled = true ∧
        (conflicts m m' = true ∨ sharesPublicIp m m' = true) := by
  obtain ⟨-, -, -, -, -, hmode⟩ := validateMapping_parts hm
  constructor
  · rintro ⟨row, hr, hc⟩
    obtain ⟨m', he, -⟩ := hrows row hr
    obtain ⟨h1, h2, h3⟩ := (clash_iff hn he hmode).1 hc
    exact ⟨h1, row, hr, m', he.decoded, h2, h3⟩
  · rintro ⟨h1, row, hr, m', hd, h2, h3⟩
    obtain ⟨m'', he, -⟩ := hrows row hr
    cases he.decoded.symm.trans hd
    exact ⟨row, hr, (clash_iff hn he hmode).2 ⟨h1, h2, h3⟩⟩

/-- **SQLite aborts a guarded write because of `MAPPING_CONSTRAINTS` exactly when the Rust
rule forbids it**: the row ends up enabled, and some other enabled row conflicts with it or
shares a public address that one of the two owns alone. -/
theorem refused_iff {config : EdgeConfig} {db : Db} {s : Stmt} (hrows : ValidRows C config db)
    (hm : validateMapping m config = .ok ()) (hw : Writes C db s m) :
    db.Aborts s ↔ m.enabled = true ∧ ∃ row ∈ db.otherRows m s, ∃ m',
      C.rowToMapping row = .ok m' ∧ m'.enabled = true ∧
        (conflicts m m' = true ∨ sharesPublicIp m m' = true) := by
  obtain ⟨-, -, -, -, -, hmode⟩ := validateMapping_parts hm
  cases hw with
  | @insert _ row hrow =>
    have hc := exists_clash_iff hrows hm (encodes_insertRow (portsOk_of_valid hmode) hrow)
    rw [← guard_iff] at hc
    have hi := Sql.Table.insert_constraint db.mappings row
    refine Iff.trans ?_ (hi.trans hc)
    unfold Db.Aborts
    rw [Db.exec_insertMapping]
    cases db.mappings.insert row <;> simp
  | @update _ cols old hcols ho hid =>
    obtain ⟨m₀, he, -⟩ := hrows old ho
    have hcid : cols.id = m.id.val := (updateRow_columns hcols).1
    have henc := encodes_replaced (portsOk_of_valid hmode) hcols he (hid.trans hcid.symm)
    have hothers : ∀ row ∈ db.mappings.others m.id.val, _ := fun row hr =>
      hrows row (Sql.Table.mem_others.1 hr).1
    refine (updateMappings_aborts cols.replaced_id ho (hid.trans hcid.symm)).trans ?_
    rw [hcid]
    exact exists_clash_iff (m := { m with createdAt := m₀.createdAt }) hothers hm henc
  | @enable m₀ old enabled status t statusText updatedAt ho hd hs ht =>
    obtain ⟨m₁, he, -⟩ := hrows old ho
    cases hd.symm.trans he.decoded
    have hothers : ∀ row ∈ db.mappings.others m₀.id.val, _ := fun row hr =>
      hrows row (Sql.Table.mem_others.1 hr).1
    refine (updateMappings_aborts (Row.withEnabled_id _ _ _) ho rfl).trans ?_
    rw [he.id]
    exact exists_clash_iff hothers hm (encodes_withEnabled enabled he hs ht)

/-! ## A sample store -/

def sampleJson : String :=
  "\x7b\"wan_interface\":\"ens3\",\"netbird_interface\":\"wt0\",\"target_cidrs\":[\"192.168.20.0/24\"]," ++
    "\"oci_compartment_id\":null,\"oci_vnic_id\":null,\"oci_subnet_id\":null,\"oci_nsg_ids\":[]," ++
    "\"oci_region\":null,\"oci_auth\":\"instance_principal\",\"api_token\":null\x7d"

/-- `serde_json` and `time` on the sample config and the sample time. -/
def sampleCodec : Codec where
  configToJson c := if c = sampleConfig then .ok sampleJson else .error "not a sample"
  configFromJson s := if s = sampleJson then .ok sampleConfig else .error "not a sample"
  formatRfc3339 t := if t = sampleTime then .ok "2026-01-01T00:00:00Z" else .error "not a sample"
  parseRfc3339 s := if s = "2026-01-01T00:00:00Z" then .ok sampleTime else .error "not a sample"
  json_inverse h := by
    split at h
    · rename_i hc; cases h; rw [if_pos rfl, hc]
    · cases h
  rfc3339_inverse h := by
    split at h
    · rename_i hc; cases h; rw [if_pos rfl, hc]
    · cases h

theorem exists_of_isOk {ε α : Type} {x : Except ε α} (h : x.isOk = true) : ∃ a, x = .ok a := by
  cases x with
  | ok a => exact ⟨a, rfl⟩
  | error e => cases h

/-- A one-to-one mapping is refused on the address of a port forward. -/
theorem refused_iff_one_to_one_on_port_forward : ∃ (old new : Row) (db : Db),
    sampleCodec.insertRow samplePortForward = .ok old ∧ sampleCodec.insertRow sampleMapping = .ok new ∧
      db.mappings.rows = [old] ∧ db.Aborts (.insertMapping new) := by
  obtain ⟨old, hold⟩ := exists_of_isOk (x := sampleCodec.insertRow samplePortForward) (by decide)
  obtain ⟨new, hnew⟩ := exists_of_isOk (x := sampleCodec.insertRow sampleMapping) (by decide)
  have henc : Encodes sampleCodec old samplePortForward :=
    encodes_insertRow (portsOk_of_valid (by decide)) hold
  refine ⟨old, new, { Db.fresh with mappings := ⟨[old], List.nodup_singleton _⟩ }, hold, hnew, rfl, ?_⟩
  have hrows : ValidRows sampleCodec sampleConfig
      { Db.fresh with mappings := ⟨[old], List.nodup_singleton _⟩ } := by
    intro row hr
    cases List.mem_singleton.1 hr
    exact ⟨_, henc, by decide⟩
  refine (refused_iff hrows (by decide) (.insert hnew)).2 ⟨rfl, old, List.mem_singleton_self _, ?_⟩
  exact ⟨samplePortForward, henc.decoded, rfl, by decide⟩

end EdgeRoute
