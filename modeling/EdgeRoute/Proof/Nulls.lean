import EdgeRoute.Spec.Netbird

/-!
# Null in a NetBird status

The producer writes null for an empty collection. A field reads null as missing if it is an `Option` or has
`null_to_default`; with only a default it refuses null.

* `nullLaw_peer`, `nullLaw_service`, `nullLaw_overview`, `nullLaw_status`: the law for each struct.
* `null_means_absent_iff`: **null reads as absent exactly where no field is replaced that has only a default.**
-/

namespace EdgeRoute

open Serde

/-- Fields selected at each level of a status; those of a peer by its index. -/
structure Selection where
  top : String → Bool
  peers : String → Bool
  peer : ℕ → String → Bool
  management : String → Bool
  signal : String → Bool

namespace Selection

variable (S : Selection) (drop : Bool)

def editPeer (index : ℕ) : Json → Json := editObject drop (S.peer index) fun _ value => value

def editPeers : Json → Json := editObject drop S.peers fun name value =>
  if name = "details" then editArray (S.editPeer drop) value else value

/-- What the edit does to the value of a field that it keeps. -/
def editValue (name : String) (value : Json) : Json :=
  if name = "peers" then S.editPeers drop value
  else if name = "management" then editObject drop S.management (fun _ value => value) value
  else if name = "signal" then editObject drop S.signal (fun _ value => value) value
  else value

/-- **The edit of a status**: the selected fields replaced by null or, with `drop`, removed. -/
def edit : Json → Json := editObject drop S.top (S.editValue drop)

end Selection

/-- No selected field is there with one of the names. -/
def Spares (selected : String → Bool) (names : List String) (fields : List (String × Json)) : Prop :=
  ∀ name ∈ names, selected name = true → ∀ field ∈ fields, field.1 ≠ name

/-- The same for a field of an object, where the field is kept and is an object itself. -/
def SparesIn (outer : String → Bool) (name : String) (selected : String → Bool) (names : List String)
    (fields : List (String × Json)) : Prop :=
  outer name = false → ∀ inner, (name, .obj inner) ∈ fields → Spares selected names inner

/-- **The condition**: none of the fields that have only a default is replaced. -/
structure Tolerated (S : Selection) (fields : List (String × Json)) : Prop where
  top : Spares S.top ["management", "signal", "lazyConnectionEnabled"] fields
  peers : SparesIn S.top "peers" S.peers ["total", "connected", "details"] fields
  management : SparesIn S.top "management" S.management ["connected"] fields
  signal : SparesIn S.top "signal" S.signal ["connected"] fields

/-! ## The structs -/

variable {S : Selection} {selected : String → Bool} {α β : Type} {read : Json → Option α}
  {fields : List (String × Json)} {name : String} {inner : Bool → String → Json → Json}

theorem valuesOf_eq_nil : valuesOf name fields = [] ↔ ∀ field ∈ fields, field.1 ≠ name := by
  simp [valuesOf]

theorem mem_valuesOf {value : Json} : value ∈ valuesOf name fields ↔ (name, value) ∈ fields := by
  simp [valuesOf]

/-- A field that reads null as missing, of a value that no edit reaches. -/
theorem nullLaw_leaf {missing : α} (hinner : ∀ drop, inner drop name = fun value => value)
    (hnull : read .null = some missing) :
    NullLaw (fun drop => editFields drop selected (inner drop)) (getField name read missing)
      (FieldAccepts name fun value => (read value).isSome) fun _ => True := by
  have hvalue : NullLaw (fun drop => inner drop name) read (fun value => (read value).isSome) fun _ => True := by
    simp only [hinner]
    exact nullLaw_id
  exact (nullLaw_tolerant hvalue hnull).congr fun _ _ => ⟨fun _ => trivial, fun _ _ _ _ => trivial⟩

/-- A field that refuses null, of a value that reads alike under both edits. -/
theorem nullLaw_refusing {missing : α} {accepts : Json → Prop}
    (hvalue : NullLaw (fun drop => inner drop name) read accepts fun _ => True) (hnull : read .null = none) :
    NullLaw (fun drop => editFields drop selected (inner drop)) (getField name read missing)
      (FieldAccepts name accepts) fun fields => Spares selected [name] fields := by
  refine (nullLaw_strict hvalue hnull).congr fun fields _ => ?_
  simp [Spares, valuesOf_eq_nil]

/-- The same of a value that no edit reaches. -/
theorem nullLaw_strictLeaf {missing : α} (hinner : ∀ drop, inner drop name = fun value => value)
    (hnull : read .null = none) :
    NullLaw (fun drop => editFields drop selected (inner drop)) (getField name read missing)
      (FieldAccepts name fun value => (read value).isSome) fun fields => Spares selected [name] fields := by
  refine nullLaw_refusing ?_ hnull
  simp only [hinner]
  exact nullLaw_id

/-- A text that may be missing. -/
theorem nullLaw_text (name : String) (hinner : ∀ drop, inner drop name = fun value => value) :
    NullLaw (fun drop => editFields drop selected (inner drop)) (getField name (readOption readString) none)
      (FieldAccepts name fun value => (readOption readString value).isSome) fun _ => True :=
  nullLaw_leaf hinner rfl

/-- The networks, null for none. -/
theorem nullLaw_networks (hinner : ∀ drop, inner drop "networks" = fun value => value) :
    NullLaw (fun drop => editFields drop selected (inner drop))
      (getField "networks" (nullToDefault [] (readVec readString)) [])
      (FieldAccepts "networks" fun value => (nullToDefault [] (readVec readString) value).isSome) fun _ => True :=
  nullLaw_leaf hinner rfl

theorem nullLaw_peer (index : ℕ) : NullLaw (fun drop => S.editPeer drop index) readPeer
    (fun value => (readPeer value).isSome) fun _ => True := by
  have htext : ∀ name, NullLaw (fun drop => editFields drop (S.peer index) fun _ value => value)
      (getField name (readOption readString) none) _ _ := fun name => nullLaw_text name fun _ => rfl
  have hnetworks : NullLaw (fun drop => editFields drop (S.peer index) fun _ value => value)
      (getField "networks" (nullToDefault [] (readVec readString)) []) _ _ := nullLaw_networks fun _ => rfl
  -- the fields in the order in which they are read
  have hfields :=
    (htext "fqdn").bind fun fqdn =>
    (htext "netbirdIp").bind fun netbirdIp =>
    (htext "netbirdIpv6").bind fun netbirdIpv6 =>
    (htext "status").bind fun status =>
    (htext "connectionType").bind fun connectionType =>
    hnetworks.bind fun networks =>
    nullLaw_some (Peer.mk fqdn netbirdIp netbirdIpv6 status connectionType networks)
  refine (nullLaw_struct hfields).congr fun value _ => ?_
  simp only [and_true, implies_true]

theorem nullLaw_service : NullLaw (fun drop => editObject drop selected fun _ value => value) readServiceStatus
    (fun value => (readServiceStatus value).isSome)
    fun value => ∀ inner, value = .obj inner → Spares selected ["connected"] inner := by
  refine (nullLaw_struct (NullLaw.bind (nullLaw_strictLeaf (fun _ => rfl) (by rfl)) fun _ => nullLaw_some _)).congr ?_
  intro value _
  simp only [and_true]

theorem editObject_ne_null {drop : Bool} {inner : String → Json → Json} {value : Json} (h : value ≠ .null) :
    editObject drop selected inner value ≠ .null := by
  cases value with
  | null => exact absurd rfl h
  | _ => simp [editObject]

theorem nullLaw_overview : NullLaw (fun drop => S.editPeers drop) readPeerOverview
    (fun value => (readPeerOverview value).isSome)
    fun value => ∀ inner, value = .obj inner → Spares S.peers ["total", "connected", "details"] inner := by
  let edits : Bool → List (String × Json) → List (String × Json) := fun drop =>
    editFields drop S.peers fun name value => if name = "details" then editArray (S.editPeer drop) value else value
  have htotal : NullLaw edits (getField "total" readUsize 0) _ _ := nullLaw_strictLeaf (fun _ => rfl) rfl
  have hconnected : NullLaw edits (getField "connected" readUsize 0) _ _ := nullLaw_strictLeaf (fun _ => rfl) rfl
  have hdetails : NullLaw edits (getField "details" (readVec readPeer) []) _ _ :=
    nullLaw_refusing (nullLaw_array nullLaw_peer) rfl
  have hfields :=
    htotal.bind fun total =>
    hconnected.bind fun connected =>
    hdetails.bind fun details =>
    nullLaw_some (PeerOverview.mk total connected details)
  refine (nullLaw_struct hfields).congr fun value _ => forall_congr' fun fields => forall_congr' fun _ => ?_
  simp [Spares]

/-- The peers of a status, null for none. -/
theorem nullLaw_peers : NullLaw (fun drop => S.editPeers drop) (nullToDefault {} readPeerOverview)
    (fun value => value = .null ∨ (readPeerOverview value).isSome)
    fun value => ∀ inner, value = .obj inner → Spares S.peers ["total", "connected", "details"] inner := by
  refine (nullLaw_overview.nullToDefault (fun _ => rfl) fun _ _ => editObject_ne_null).congr fun value _ => ?_
  constructor
  · intro h inner heq
    exact h (by rw [heq]; exact Json.noConfusion) inner heq
  · exact fun h _ => h

theorem nullLaw_status : NullLaw (fun drop => S.edit drop) parseStatus (fun value => (parseStatus value).isSome)
    fun value => ∀ fields, value = .obj fields → Tolerated S fields := by
  let edits : Bool → List (String × Json) → List (String × Json) := fun drop => editFields drop S.top (S.editValue drop)
  have hpeers : NullLaw edits (getField "peers" (nullToDefault {} readPeerOverview) {}) _ _ :=
    nullLaw_tolerant nullLaw_peers rfl
  have htext : ∀ name, (∀ drop, S.editValue drop name = fun value => value) →
      NullLaw edits (getField name (readOption readString) none) _ _ := fun name => nullLaw_text name
  have hmanagement : NullLaw edits (getField "management" readServiceStatus {}) _ _ :=
    nullLaw_strict nullLaw_service rfl
  have hsignal : NullLaw edits (getField "signal" readServiceStatus {}) _ _ := nullLaw_strict nullLaw_service rfl
  have hkernel : NullLaw edits (getField "usesKernelInterface" (readOption readBool) none) _ _ :=
    nullLaw_leaf (fun _ => rfl) rfl
  have hnetworks : NullLaw edits (getField "networks" (nullToDefault [] (readVec readString)) []) _ _ :=
    nullLaw_networks fun _ => rfl
  have hlazy : NullLaw edits (getField "lazyConnectionEnabled" readBool false) _ _ :=
    nullLaw_strictLeaf (fun _ => rfl) rfl
  -- the fields in the order in which they are read
  have hfields :=
    hpeers.bind fun peers =>
    (htext "cliVersion" fun _ => rfl).bind fun cliVersion =>
    (htext "daemonVersion" fun _ => rfl).bind fun daemonVersion =>
    (htext "daemonStatus" fun _ => rfl).bind fun daemonStatus =>
    hmanagement.bind fun management =>
    hsignal.bind fun signal =>
    (htext "netbirdIp" fun _ => rfl).bind fun netbirdIp =>
    (htext "netbirdIpv6" fun _ => rfl).bind fun netbirdIpv6 =>
    hkernel.bind fun usesKernelInterface =>
    (htext "fqdn" fun _ => rfl).bind fun fqdn =>
    hnetworks.bind fun networks =>
    hlazy.bind fun lazyConnectionEnabled =>
    nullLaw_some (NetbirdStatus.mk peers cliVersion daemonVersion daemonStatus management signal netbirdIp netbirdIpv6
      usesKernelInterface fqdn networks lazyConnectionEnabled)
  refine (nullLaw_struct hfields).congr ?_
  intro value _
  refine forall_congr' fun fields => forall_congr' fun _ => ?_
  simp only [mem_valuesOf, valuesOf_eq_nil, true_and, and_true]
  constructor
  · rintro ⟨hpeers, ⟨hmanagement, hinManagement⟩, ⟨hsignal, hinSignal⟩, hlazy⟩
    refine ⟨?_, fun hkeep inner hmem => hpeers hkeep _ hmem inner rfl,
      fun hkeep inner hmem => hinManagement hkeep _ hmem inner rfl,
      fun hkeep inner hmem => hinSignal hkeep _ hmem inner rfl⟩
    intro name hname hsel
    simp only [List.mem_cons, List.not_mem_nil, or_false] at hname
    rcases hname with rfl | rfl | rfl
    · exact hmanagement hsel
    · exact hsignal hsel
    · exact hlazy _ List.mem_cons_self hsel
  · rintro ⟨htop, hpeers, hmanagement, hsignal⟩
    refine ⟨?_, ⟨htop _ (by simp), ?_⟩, ⟨htop _ (by simp), ?_⟩, ?_⟩
    · rintro hkeep _ hmem inner rfl
      exact hpeers hkeep inner hmem
    · rintro hkeep _ hmem inner rfl
      exact hmanagement hkeep inner hmem
    · rintro hkeep _ hmem inner rfl
      exact hsignal hkeep inner hmem
    · intro name hname hsel
      cases List.mem_singleton.1 hname
      exact htop _ (by simp) hsel

/-- **Null in a NetBird status.** For every status object that `parse_status` accepts and every selection of its
fields, at the top, in the peers, in each peer, in management and in signal: with null for the selected fields it
returns what it returns without them exactly where none of them is a field of the status that has only a default,
that is management, signal, lazyConnectionEnabled, the total, connected and details of the peers, and the
connected of management and signal. Without them it returns a status always. -/
theorem null_means_absent_iff (S : Selection) {fields : List (String × Json)}
    (h : (parseStatus (.obj fields)).isSome) :
    (parseStatus (S.edit false (.obj fields)) = parseStatus (S.edit true (.obj fields)) ↔ Tolerated S fields) ∧
      (parseStatus (S.edit true (.obj fields))).isSome := by
  refine ⟨?_, nullLaw_status.removed _ h⟩
  rw [nullLaw_status.same_iff h]
  exact ⟨fun hall => hall fields rfl, fun ht fields' heq => by cases heq; exact ht⟩

/-! ## Two selections -/

/-- A status with a peer. -/
def sampleStatus : List (String × Json) :=
  [("daemonStatus", .str "Connected"), ("networks", .arr [.str "10.10.40.0/24"]),
    ("peers", .obj [("total", .int 1), ("connected", .int 1),
      ("details", .arr [.obj [("fqdn", .str "router.bird.home"), ("networks", .arr [.str "10.10.30.0/24"])]])]),
    ("management", .obj [("url", .str "https://private.example"), ("connected", .bool true)])]

theorem sampleStatus_accepted : (parseStatus (.obj sampleStatus)).isSome := by decide

/-- The networks, of the status and of its peers. -/
def networksSelected : Selection where
  top name := name = "networks"
  peers _ := false
  peer _ name := name = "networks"
  management _ := false
  signal _ := false

/-- Null networks read as no networks. -/
theorem null_means_absent_networks :
    parseStatus (networksSelected.edit false (.obj sampleStatus)) =
      parseStatus (networksSelected.edit true (.obj sampleStatus)) := by
  refine (null_means_absent_iff networksSelected sampleStatus_accepted).1.2 ⟨?_, ?_, ?_, ?_⟩
  · intro name hname hsel
    simp only [networksSelected, decide_eq_true_eq] at hsel
    subst hsel
    exact absurd hname (by decide)
  · intro _ inner _ name _ hsel
    cases hsel
  · intro _ inner _ name _ hsel
    cases hsel
  · intro _ inner _ name _ hsel
    cases hsel

/-- The list of the peers alone. -/
def detailsSelected : Selection where
  top _ := false
  peers name := name = "details"
  peer _ _ := false
  management _ := false
  signal _ := false

/-- **Null for the list of the peers** is refused, where the list left out is no peers. -/
theorem null_means_absent_not_details : (parseStatus (.obj sampleStatus)).isSome ∧
    parseStatus (detailsSelected.edit false (.obj sampleStatus)) ≠
      parseStatus (detailsSelected.edit true (.obj sampleStatus)) := by
  have hrefused : (parseStatus (detailsSelected.edit false (.obj sampleStatus))).isSome = false := by decide
  have hread : (parseStatus (detailsSelected.edit true (.obj sampleStatus))).isSome = true := by decide
  refine ⟨sampleStatus_accepted, fun heq => ?_⟩
  rw [heq, hread] at hrefused
  cases hrefused

end EdgeRoute
