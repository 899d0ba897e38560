import EdgeRoute.Proof.Grounds
import EdgeRoute.Proof.Shadow

/-!
# Where the addresses of a mapping come from

The cloud gives out no id twice. So an address belongs to the call that created it, and a row names it only after that
call has written it there.

* `created_once`, `gone_reach`: no address is created by two calls, and one that was deleted stays so.
* `origin_of_grounded`: **a call deletes what the row names or what it has created itself.**
* `names_row`: **a call writes no name into the row but those it has created.**
* `Starts`: the states that the calls may start from, which every run of them keeps.
-/

namespace EdgeRoute

open Effect

variable {C : Codec} {J : OciJson} {N : String → Except String NetbirdStatus} {config : EdgeConfig} {id : MappingId}
  {ε α : Type} {w w' w₀ : AgentWorld} {q q' : List (Event AgentSig)} {a : Address}

/-! ## Addresses given out -/

section Issued

variable {calls pool : ℕ → AgentProg ε α} {tr : List (ℕ × Event AgentSig)} {o : AgentOp} {r : o.Reply}

/-- What an operation of the agent does to the cloud. -/
theorem cloud_of_agentEnv (hE : agentEnv J w o r w') : w'.cloud = w.cloud ∨
    ∃ command outcome, (⟨o, r⟩ : Event AgentSig) = ⟨.oci command, outcome⟩ ∧
      cloudEnv J w.cloud command outcome w'.cloud := by
  cases o with
  | oci command =>
    obtain ⟨cloud, hc, rfl⟩ := hE
    exact .inr ⟨command, r, rfl, hc⟩
  | host o => obtain ⟨host, -, rfl⟩ := hE; exact .inl rfl
  | selectEvents limit => rw [hE.1]; exact .inl rfl
  | newId | netbirdStatus | routeGet target | envVar name => rw [show w' = w from hE]; exact .inl rfl

theorem issued_step (hE : agentEnv J w o r w') : ∀ id ∈ w.cloud.issued, id ∈ w'.cloud.issued := by
  rcases cloud_of_agentEnv hE with h | ⟨command, outcome, -, h⟩
  · rw [h]
    exact fun _ h => h
  · exact issued_mono h

theorem live_event (hE : agentEnv J w o r w') (ha : w'.cloud.Has a) :
    w.cloud.Has a ∨ (a.id ∉ w.cloud.issued ∧ a.id ∈ w'.cloud.issued) := by
  rcases cloud_of_agentEnv hE with h | ⟨command, outcome, -, h⟩
  · rw [h] at ha
    exact .inl ha
  · exact live_step h ha

theorem created_event (hE : agentEnv J w o r w') (ha : createdBy J ⟨o, r⟩ = some a) :
    a.id ∉ w.cloud.issued ∧ a.id ∈ w'.cloud.issued := by
  cases o with
  | oci command =>
    obtain ⟨cloud, hc, rfl⟩ := hE
    obtain ⟨hnew, hcloud⟩ := created_step hc ha
    refine ⟨hnew, ?_⟩
    show a.id ∈ cloud.issued
    rw [hcloud, Cloud.issued_add]
    exact List.mem_cons_self
  | _ => cases ha

theorem deleted_event (hE : agentEnv J w o r w') (ha : deletedBy ⟨o, r⟩ = some a) :
    w.cloud.Has a ∧ ¬ w'.cloud.Has a := by
  cases o with
  | oci command =>
    obtain ⟨cloud, hc, rfl⟩ := hE
    exact deleted_step hc ha
  | _ => cases ha

theorem issued_reach (hr : Reach (agentEnv J) calls w₀ tr pool w) : ∀ id ∈ w₀.cloud.issued, id ∈ w.cloud.issued := by
  induction hr with
  | init => exact fun _ h => h
  | step _ _ hE ih => exact fun id h => issued_step hE id (ih id h)

/-- What is created was not given out before, and is from then on. -/
theorem created_reach (hr : Reach (agentEnv J) calls w₀ tr pool w) {i : ℕ} {e : Event AgentSig} (he : (i, e) ∈ tr)
    (ha : createdBy J e = some a) : a.id ∉ w₀.cloud.issued ∧ a.id ∈ w.cloud.issued := by
  induction hr with
  | init => cases he
  | @step tr pool w w' j o k r hr _ hE ih =>
    rcases List.mem_append.1 he with he | he
    · exact ⟨(ih he).1, issued_step hE _ (ih he).2⟩
    · cases List.mem_singleton.1 he
      obtain ⟨hnew, hgiven⟩ := created_event hE ha
      exact ⟨fun h => hnew (issued_reach hr _ h), hgiven⟩

/-- **No address is created by two calls.** -/
theorem created_once (hr : Reach (agentEnv J) calls w₀ tr pool w) {i j : ℕ} {e e' : Event AgentSig}
    (he : (i, e) ∈ tr) (he' : (j, e') ∈ tr) (ha : createdBy J e = some a) (ha' : createdBy J e' = some a) : i = j := by
  induction hr with
  | init => cases he
  | @step tr pool w w' l o k r hr _ hE ih =>
    rcases List.mem_append.1 he with hold | hnew
    · rcases List.mem_append.1 he' with hold' | hnew'
      · exact ih hold hold'
      · cases List.mem_singleton.1 hnew'
        exact absurd (created_reach hr hold ha).2 (created_event hE ha').1
    · rcases List.mem_append.1 he' with hold' | hnew'
      · cases List.mem_singleton.1 hnew
        exact absurd (created_reach hr hold' ha').2 (created_event hE ha).1
      · cases List.mem_singleton.1 hnew
        cases List.mem_singleton.1 hnew'
        rfl

variable (hlive : ∀ a, w₀.cloud.Has a → a.id ∈ w₀.cloud.issued)
include hlive

/-- Every live address was given out. -/
theorem live_issued (hr : Reach (agentEnv J) calls w₀ tr pool w) : ∀ a, w.cloud.Has a → a.id ∈ w.cloud.issued := by
  induction hr with
  | init => exact hlive
  | @step tr pool w w' i o k r _ _ hE ih =>
    intro a ha
    rcases live_event hE ha with h | h
    · exact issued_step hE _ (ih a h)
    · exact h.2

/-- **An address that was deleted stays so.** -/
theorem gone_reach (hr : Reach (agentEnv J) calls w₀ tr pool w) {i : ℕ} {e : Event AgentSig} (he : (i, e) ∈ tr)
    (ha : deletedBy e = some a) : a.id ∈ w.cloud.issued ∧ ¬ w.cloud.Has a := by
  induction hr with
  | init => cases he
  | @step tr pool w w' j o k r hr _ hE ih =>
    rcases List.mem_append.1 he with hold | hnew
    · obtain ⟨hgiven, hgone⟩ := ih hold
      refine ⟨issued_step hE _ hgiven, fun h => ?_⟩
      rcases live_event hE h with h | h
      · exact hgone h
      · exact h.1 hgiven
    · cases List.mem_singleton.1 hnew
      obtain ⟨hwas, hgone⟩ := deleted_event hE ha
      exact ⟨issued_step hE _ (live_issued hlive hr a hwas), hgone⟩

end Issued

/-! ## Where an address comes from -/

/-- The row names the address. -/
def Ref.Names (ref : Ref) : Address → Prop
  | .privateIp id => ref.privateIp = some id
  | .publicIp id => ref.publicIp = some id

/-- The call has created the address. -/
def Made (J : OciJson) (q : List (Event AgentSig)) (a : Address) : Prop := ∃ e ∈ q, createdBy J e = some a

/-- The call has read a row that names the address. -/
def ReadNamed (q : List (Event AgentSig)) (a : Address) : Prop :=
  ∃ id row, ⟨.host (.store (.sql (.selectMapping id))), .ok (some row)⟩ ∈ q ∧ row.ref.Names a

theorem made_of_private {ip : String} (h : MadePrivate J q ip) : Made J q (.privateIp ip) := by
  obtain ⟨vnicId, name, output, address, hmem, hs, hparse, rfl⟩ := h
  exact ⟨_, hmem, by simp [createdBy, hs, hparse, Except.toOption]⟩

theorem made_of_public {ip : String} (h : MadePublic J q ip) : Made J q (.publicIp ip) := by
  obtain ⟨compartmentId, privateIpId, name, output, address, hmem, hs, hparse, rfl⟩ := h
  exact ⟨_, hmem, by simp [createdBy, hs, hparse, Except.toOption]⟩

theorem readNamed_of_read {text : String} {m : Mapping} (h : HasRead C text q m) (ha : m.ref.Names a) :
    ReadNamed q a := by
  obtain ⟨id, row, -, hmem, hdec⟩ := h
  have hcols := rowToMapping_ok.1 hdec
  refine ⟨id.val, row, hmem, ?_⟩
  cases a with
  | privateIp ip => exact hcols.ociPrivateIpOcid.trans ha
  | publicIp ip => exact hcols.ociPublicIpOcid.trans ha

/-- A request on a mapping names no address itself. -/
theorem names_none (config : EdgeConfig) {headers : HeaderMap} {call : ApiCall}
    (hon : (RowCall.api headers call).On id) :
    (FrontCall.api config headers call).publicIp = none ∧ (FrontCall.api config headers call).privateIp = none := by
  cases call with
  | ociRelease request =>
    obtain ⟨text, htext, -⟩ := hon
    simp [FrontCall.publicIp, FrontCall.privateIp, htext]
  | _ => exact ⟨rfl, rfl⟩

/-- **A request on a mapping deletes what the row names or what it has created itself.** -/
theorem origin_of_grounded {headers : HeaderMap} {call : ApiCall} (hon : (RowCall.api headers call).On id)
    {command : OciCommand} (h : Grounded C J (.api config headers call) q command) (ha : command.deletes = some a) :
    ReadNamed q a ∨ Made J q a := by
  obtain ⟨hpublic, hprivate⟩ := names_none config hon
  cases command with
  | deletePublicIp ip =>
    obtain rfl := Option.some.inj ha
    obtain ⟨-, hnamed | ⟨text, m, -, hread, hocid⟩ | hmade⟩ := h .delete rfl
    · rw [hpublic] at hnamed
      cases hnamed
    · exact .inl (readNamed_of_read hread hocid)
    · exact .inr (made_of_public hmade)
  | deletePrivateIp ip =>
    obtain rfl := Option.some.inj ha
    obtain ⟨-, hnamed | ⟨text, m, -, hread, hocid⟩ | hmade⟩ := h .delete rfl
    · rw [hprivate] at hnamed
      cases hnamed
    · exact .inl (readNamed_of_read hread hocid)
    · exact .inr (made_of_private hmade)
  | _ => cases ha

/-- A write of a row names only what the call has created. -/
abbrev namesMade (J : OciJson) : Monitor AgentSig (List (Event AgentSig)) :=
  .recall some fun q o => match o with
    | .host (.store (.sql (.updateMapping cols))) => ∀ a, cols.ref.Names a → Made J q a
    | _ => True

/-- The operation writes no name into a row, or none but those of `ref`. -/
def NamesOnly (ref : Ref) : AgentOp → Prop
  | .host (.store (.sql (.updateMapping cols))) => cols.ref = ref
  | _ => True

theorem names_updateMapping (m : Mapping) : (onStore (updateMapping C m)).Uses (NamesOnly m.ref) := by
  refine onStore_uses (updateMapping_uses C trivial trivial fun cols hcols => ?_)
  simp only [Codec.updateRow, Codec.bindMapping, except_bind_ok] at hcols
  obtain ⟨_, -, _, -, _, -, _, -, _, -, _, -, hcols⟩ := hcols
  cases hcols
  rfl

theorem names_of_uses {p : AgentProg ε α} {ref : Ref} (h : p.Uses (NamesOnly ref))
    (hmade : ∀ a, ref.Names a → Made J q a) : p.wpOk (namesMade J) (fun _ _ => True) q := by
  refine Prog.wpOk_recall_of_uses (Prog.uses_mono (fun o ho => ?_) h) fun q' o hq ho => ?_
  · split
    · exact fun a ha => hmade a (ho ▸ ha)
    · trivial
  · split
    · exact fun a ha => (ho a ha).imp fun e he => ⟨hq.subset he.1, he.2⟩
    · trivial

/-- What names no address. -/
def Ref.unnamed : Ref := ⟨"", none, none⟩

theorem Ref.unnamed_names (a : Address) : ¬ Ref.unnamed.Names a := by cases a <;> exact fun h => nomatch h

theorem names_part {p : AgentProg ε α} (h : p.Uses (NamesOnly .unnamed)) : p.Keeps (namesMade J) := fun _ =>
  names_of_uses h fun a ha => absurd ha (Ref.unnamed_names a)

theorem names_recordEvent {level : EventLevel} {message : String} {data : Option String} {ref : Ref} :
    ((onStore (recordEvent C level message data)).attempt :
      AgentProg ε (Except EdgeCoreError EventRecord)).Uses (NamesOnly ref) :=
  Prog.uses_attempt (onStore_uses (recordEvent_uses C trivial fun _ _ => trivial))

theorem Made.mono (hq : q <+: q') (h : Made J q a) : Made J q' a := h.imp fun _ he => ⟨hq.subset he.1, he.2⟩

/-- The status of a mapping is no name. -/
theorem names_markStatus {m : Mapping} {status : MappingStatus} :
    (markStatus m status : AgentProg ε Mapping).wpOk (namesMade J) (fun q' m' => q <+: q' ∧ m'.ref = m.ref) q := by
  have hcall : (markStatus m status : AgentProg ε Mapping).wpOk (namesMade J) (fun _ m' => m'.ref = m.ref) q :=
    Prog.wpOk_call (M := namesMade J) trivial fun now => Prog.wpOk_ret rfl
  exact Prog.wpOk_extends hcall

theorem names_storeAllocation {onFailure : EdgeCoreError → Except OciError Unit → Except OciError Unit → ε}
    {m : Mapping} {a : Allocation} (hmade : ∀ address, (m.allocated a).ref.Names address → Made J q address) :
    (storeAllocation C onFailure m a).wpOk (namesMade J) (fun _ _ => True) q := by
  refine Prog.wpOk_bind (Prog.wpOk_mono ?_ names_markStatus)
  rintro q₁ m' ⟨hq₁, href⟩
  have hback : ∀ {p : OciProg Unit}, ((liftOci p).attempt : AgentProg ε (Except OciError Unit)).Uses
      (NamesOnly m'.ref) := Prog.uses_attempt (liftOci_uses (Prog.uses_of_forall fun _ => trivial))
  refine names_of_uses (Prog.uses_bind (Prog.uses_attempt (names_updateMapping m')) fun x => ?_) ?_
  · cases x with
    | ok u => exact Prog.uses_ret
    | error e => exact Prog.uses_bind hback fun _ => Prog.uses_bind hback fun _ => Prog.uses_fail
  · rw [href]
    exact fun address haddress => (hmade address haddress).mono hq₁

/-- The two addresses of an allocation are created before the row names them. -/
theorem names_allocate {headers : HeaderMap} {request : OciAllocateRequest} :
    (Api.ociAllocate C J config headers request).Keeps (namesMade J) := by
  refine Prog.keeps_bind Prog.keeps_ofExcept fun _ => Prog.keeps_bind Prog.keeps_ofExcept fun _ => ?_
  refine Prog.keeps_bind Prog.keeps_ofExcept fun id => Prog.keeps_bind ?_ fun m => ?_
  · exact names_part (apiStore_uses (getMapping_uses C trivial))
  refine Prog.keeps_bind Prog.keeps_ofExcept fun _ => Prog.keeps_bind Prog.keeps_ofExcept fun compartmentId => ?_
  refine Prog.keeps_bind Prog.keeps_ofExcept fun vnicId q => ?_
  have hcreated : (liftOci (allocateForwardingIp J compartmentId vnicId
      (some ((resolve request.displayName none).getD m.name)))).wpOk (namesMade J)
      (fun q' a => MadePrivate J q' a.privateIp.id ∧ MadePublic J q' a.publicIp.id) q :=
    Prog.wpOk_embed (T := AgentSig) (ι := AgentOp.oci) (M := ociRecall fun _ _ => True) (N := namesMade J)
      (fun _ _ _ => trivial) (fun _ _ _ => rfl)
      (allocateWith_seen trivial (fun _ _ _ => trivial) (fun _ _ _ _ => trivial) fun _ _ _ => trivial)
  refine Prog.wpOk_bind (Prog.wpOk_mono ?_ (Prog.wpOk_mapErr hcreated))
  rintro q₁ a ⟨hprivate, hpublic⟩
  refine Prog.wpOk_bind (Prog.wpOk_mono (fun q₂ _ _ => ?_) (names_storeAllocation fun address haddress => ?_))
  · exact Prog.keeps_bind (names_part names_recordEvent) (fun _ => Prog.keeps_ret) q₂
  · cases address with
    | privateIp ip =>
      obtain rfl := Option.some.inj haddress
      exact made_of_private hprivate
    | publicIp ip =>
      obtain rfl := Option.some.inj haddress
      exact made_of_public hpublic

/-- A release leaves no name in the row. -/
theorem names_release {headers : HeaderMap} {request : OciReleaseRequest} :
    (Api.ociRelease C config headers request).Keeps (namesMade J) := by
  have hdelete : ∀ publicIpId privateIpId, (Api.deleteIps publicIpId privateIpId).Uses (NamesOnly .unnamed) :=
    deleteIps_uses fun _ => trivial
  refine Prog.keeps_bind Prog.keeps_ofExcept fun _ => Prog.keeps_bind Prog.keeps_ofExcept fun _ => ?_
  split
  · refine Prog.keeps_bind Prog.keeps_ofExcept fun id => Prog.keeps_bind ?_ fun m => ?_
    · exact names_part (apiStore_uses (getMapping_uses C trivial))
    refine Prog.keeps_bind Prog.keeps_ofExcept fun _ => Prog.keeps_bind (names_part (hdelete _ _)) fun _ q => ?_
    refine Prog.wpOk_bind (Prog.wpOk_mono ?_ names_markStatus)
    rintro q₁ m' ⟨-, href⟩
    refine Prog.wpOk_bind (Prog.wpOk_mono (fun q₂ _ _ => ?_) (Prog.wpOk_mapErr
      (names_of_uses (names_updateMapping m') fun address haddress => ?_)))
    · exact Prog.keeps_bind (names_part names_recordEvent) (fun _ => Prog.keeps_ret) q₂
    · rw [href] at haddress
      cases address <;> exact nomatch haddress
  · refine Prog.keeps_bind Prog.keeps_ofExcept fun _ => ?_
    exact Prog.keeps_bind (names_part (hdelete _ _)) fun _ => Prog.keeps_ret

/-- **Every call on a mapping writes no name into the row but those it has created.** -/
theorem names_row {call : RowCall} (hon : call.On id) : (call.prog C J N config id).Keeps (namesMade J) := by
  have henabled : ∀ {headers : HeaderMap} {text : String} {enabled : Bool},
      (Api.setEnabled C config headers text enabled).Keeps (namesMade J) := by
    intro headers text enabled
    refine Prog.keeps_bind Prog.keeps_ofExcept fun _ => Prog.keeps_bind Prog.keeps_ofExcept fun id => ?_
    refine Prog.keeps_bind (names_part (apiStore_uses ?_)) fun _ => Prog.keeps_ret
    exact setMappingEnabled_uses C trivial trivial fun _ _ _ => trivial
  cases call with
  | health status healthStatus lastError =>
    refine Prog.keeps_bind (names_part (apiStore_uses ?_)) fun _ => Prog.keeps_ret
    exact setMappingHealth_uses C trivial trivial fun _ _ _ _ _ => trivial
  | api headers call =>
    cases call with
    | enableMapping text | disableMapping text => exact henabled
    | ociAllocate request => exact names_allocate
    | ociRelease request => exact names_release
    | _ => exact absurd hon False.elim

/-! ## Where the calls start -/

/-- An operation of a call on a mapping. -/
def OfRow (o : AgentOp) : Prop := o.BeforeWrite ∨ o.AfterWrite

theorem ofRow_uses {call : RowCall} (hon : call.On id) : (call.prog C J N config id).Uses OfRow :=
  (commits_row (J := J) hon).uses (fun _ ho => .inl ho) fun _ h => Prog.uses_mono (fun _ ho => .inr ho) h.uses

/-- What an operation of a call on a mapping does to the names in the rows. -/
theorem rowRefs_step {o : AgentOp} {r : o.Reply} (ho : OfRow o) (hE : agentEnv J w o r w') :
    w'.host.db.refs = w.host.db.refs ∨ ∃ cols : Row,
      (⟨o, r⟩ : Event AgentSig) = ⟨.host (.store (.sql (.updateMapping cols))), .ok 1⟩ ∧
      w'.host.db.refs = replaceRef w.host.db.refs cols.ref := by
  unfold Db.refs
  rcases table_of_agentEnv hE with h | ⟨so, sr, he, hstep⟩
  · exact .inl (congrArg _ (congrArg _ h))
  · cases he
    generalize hev : (⟨so, sr⟩ : Event StoreSig) = e at hstep
    cases hstep with
    | same _ ht => exact .inl (congrArg _ (congrArg _ ht))
    | insert row => cases hev; rcases ho with ho | ho <;> exact absurd ho (fun h => h)
    | update cols old _ _ _ ht =>
      cases hev
      rw [ht]
      exact .inr ⟨cols, rfl, map_ref_replaced cols⟩
    | enable id old enabled status updatedAt _ _ _ ht =>
      rw [ht]
      exact .inl (map_ref_set fun _ => rfl)
    | health id old status healthStatus lastError checked updated _ _ ht =>
      rw [ht]
      exact .inl (map_ref_set fun _ => rfl)
    | delete id ht => cases hev; rcases ho with ho | ho <;> exact absurd ho (fun h => h)

/-- **The states that the calls may start from**: the mapping is stored, the table is one that the store keeps, and
every address that is live or that a row names was given out. -/
structure Starts (C : Codec) (id : MappingId) (w : AgentWorld) : Prop where
  row : ∃ ref ∈ w.host.db.refs, ref.id = id.val
  stored : EnabledApart C w.host.db.mappings
  live : ∀ a, w.cloud.Has a → a.id ∈ w.cloud.issued
  named : ∀ ref ∈ w.host.db.refs, ∀ a, ref.Names a → a.id ∈ w.cloud.issued

/-- The row is there, and can be read. -/
theorem Starts.readable (h : Starts C id w) : Readable C id w.host.db := by
  obtain ⟨ref, href, hid⟩ := h.row
  obtain ⟨row, hrow, rfl⟩ := List.mem_map.1 href
  obtain ⟨m, he, -⟩ := h.stored.stored row hrow
  exact ⟨row, m, Sql.Table.find_of_mem hrow hid, he.decoded⟩

section Calls

variable {calls : ℕ → RowCall} {pool : ℕ → ApiProg ApiResponse} {tr : List (ℕ × Event AgentSig)} {i : ℕ}
  (hon : ∀ i, (calls i).On id) (hr : Reach (agentEnv J) (fun i => (calls i).prog C J N config id) w₀ tr pool w)
include hon hr

/-- The operation that a call asks for is one of a call on a mapping. -/
theorem ofRow_next {o : AgentOp} {k : o.Reply → ApiProg ApiResponse}
    (hp : pool i = .call (S := AgentSig) o k) : OfRow o := by
  have hcall : ((calls i).prog C J N config id).Uses OfRow := ofRow_uses (hon i)
  have huses := (hr.uses hcall).1
  rw [hp] at huses
  exact (Prog.uses_call_iff.1 huses).1

omit hr in
/-- What a call writes into the row, it has created before. -/
theorem made_of_written {cols : Row} {r : (AgentOp.host (.store (.sql (.updateMapping cols)))).Reply}
    (hr : Reach (agentEnv J) (fun i => (calls i).prog C J N config id) w₀
      (tr ++ [(i, ⟨.host (.store (.sql (.updateMapping cols))), r⟩)]) pool w) (ha : cols.ref.Names a) :
    Made J (own i tr) a := by
  have hallow := hr.allowed (M := namesMade J) [] (names_row (hon i))
  rw [Monitor.recall_after, List.filterMap_some, List.nil_append] at hallow
  exact hallow a ha

/-- **Every run leads from such a state to another.** -/
theorem starts_reach (h : Starts C id w₀) : Starts C id w := by
  refine ⟨?_, enabledApart_reach (fun i => stored_row (calls i)) h.stored hr, live_issued h.live hr, ?_⟩
  · induction hr with
    | init => exact h.row
    | @step tr pool w w' i o k r hr hp hE ih =>
      obtain ⟨ref, href, hid⟩ := ih
      rcases rowRefs_step (ofRow_next hon hr hp) hE with hsame | ⟨cols, -, hset⟩
      · rw [hsame]
        exact ⟨ref, href, hid⟩
      · rw [hset]
        by_cases hc : ref.id = cols.ref.id
        · exact ⟨cols.ref, mem_replaceRef_self href hc, hc ▸ hid⟩
        · exact ⟨ref, mem_replaceRef_of_ne href hc, hid⟩
  · induction hr with
    | init => exact h.named
    | @step tr pool w w' i o k r hr hp hE ih =>
      intro ref href a ha
      rcases rowRefs_step (ofRow_next hon hr hp) hE with hsame | ⟨cols, he, hset⟩
      · rw [hsame] at href
        exact issued_step hE _ (ih ref href a ha)
      · rw [hset] at href
        obtain ⟨old, hold, hnew⟩ := List.mem_map.1 href
        split at hnew
        · -- the write names what its call has created
          subst hnew
          cases he
          obtain ⟨e, he, hmade⟩ := made_of_written hon (hr.step hp hE) ha
          exact issued_step hE _ (created_reach hr (mem_own.1 he) hmade).2
        · exact issued_step hE _ (ih ref (hnew ▸ hold) a ha)

end Calls

end EdgeRoute
