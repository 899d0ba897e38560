import EdgeRoute.Proof.Concurrent
import EdgeRoute.Spec.Host

/-!
# Listings and answers

* `parse_of_prints`: the controller reads the addresses of an interface from the output of `ip`, whatever
  their prefixes and other ends.
* `answer_env`: a host that always answers is a host.
-/

namespace EdgeRoute

open Effect

/-! ## Listings -/

/-- The first word of an address and what follows it on its line. -/
theorem InetAddr.toText_split (a : InetAddr) : ∃ word rest : List Char, a.toText.toList = word ++ rest ∧
    word ≠ [] ∧ (∀ c ∈ word, Text.isWhite c = false) ∧ (rest = [] ∨ rest.head? = some ' ') ∧
    (∃ tail, word = a.addr.toText.toList ∨ word = a.addr.toText.toList ++ '/' :: tail) := by
  have hne : a.addr.toText.toList ≠ [] := by rw [Ipv4Addr.toList_toText]; simp
  have hwhite : ∀ c ∈ a.addr.toText.toList, Text.isWhite c = false := by
    intro c hc
    rcases Ipv4Addr.mem_toText hc with h | rfl
    · exact Text.not_isWhite_of_isDigit h
    · decide
  unfold InetAddr.toText
  cases a.peer with
  | none =>
    refine ⟨a.addr.toText.toList ++ '/' :: a.prefixLen.repr.toList, [], by simp, by simp, ?_, .inl rfl,
      _, .inr rfl⟩
    intro c hc
    rcases List.mem_append.1 hc with hc | hc
    · exact hwhite c hc
    · rcases List.mem_cons.1 hc with rfl | hc
      · decide
      · exact Text.not_isWhite_of_isDigit (Text.isDigit_of_mem_repr hc)
  | some peer =>
    refine ⟨a.addr.toText.toList, " peer ".toList ++ (peer.toText ++ "/" ++ a.prefixLen.repr).toList, ?_, hne,
      hwhite, .inr ?_, [], .inl rfl⟩
    · simp only [String.toList_append, List.append_assoc]
    · rw [List.head?_append_of_ne_nil _ (by decide)]
      decide

/-- The address of an `inet` line is read, whatever stands around it. -/
theorem parseInetLine_inet {indent tail : List Char} (hindent : ∀ c ∈ indent, c = ' ') (a : InetAddr) :
    parseInetLine (ShowLine.inet indent a tail).text = some a.addr := by
  obtain ⟨word, rest, htext, hne, hwhite, hrest, more, hword⟩ := a.toText_split
  obtain ⟨b, hlast⟩ : ∃ b, word.getLast? = some b := by
    rw [← Option.isSome_iff_exists, List.getLast?_isSome]; exact hne
  have hb := hwhite b (List.mem_of_getLast? hlast)
  have hline : (ShowLine.inet indent a tail).text =
      indent ++ (("inet ".toList ++ word) ++ (rest ++ ' ' :: tail)) := by
    simp [ShowLine.text, htext, List.append_assoc]
  have hlast' : ("inet ".toList ++ word).getLast? = some b := by
    rw [List.getLast?_append_of_ne_nil _ hne]; exact hlast
  have htrim : Text.trimChars (ShowLine.inet indent a tail).text =
      "inet ".toList ++ (word ++ (rest ++ ' ' :: tail).rdropWhile Text.isWhite) := by
    rw [hline, Text.trimChars_append (fun c hc => by rw [hindent c hc]; decide) rfl (by decide) hlast' hb,
      List.append_assoc]
  have hhead : ∀ c ∈ ((rest ++ ' ' :: tail).rdropWhile Text.isWhite).head?, Text.isWhite c = true := by
    intro c hc
    have hspace : (rest ++ ' ' :: tail).head? = some ' ' := by
      rcases hrest with rfl | hrest
      · rfl
      · rw [List.head?_append, hrest]; rfl
    have hc' := Text.mem_head?_of_rdropWhile hc
    rw [hspace] at hc'
    cases hc'
    decide
  have hsplit : withoutPrefixLen word = a.addr.toText.toList := by
    unfold withoutPrefixLen
    rcases hword with rfl | rfl
    · rw [Text.splitOnce_none a.addr.slash_notMem_toText]
    · rw [Text.splitOnce_append a.addr.slash_notMem_toText]
  simp only [parseInetLine, htrim, Text.stripPrefix_append, Text.firstWord_append hne hwhite hhead,
    Option.bind_eq_bind, Option.bind_some, hsplit, Ipv4Addr.parse_toText]

theorem ShowLine.parse_text {line : ShowLine} (h : line.Proper) :
    parseInetLine line.text = line.entry.map InetAddr.addr := by
  cases line with
  | inet indent a tail => exact parseInetLine_inet h.1 a
  | other text =>
    unfold parseInetLine
    rw [show (ShowLine.other text).text = text from rfl, h.2.2]
    rfl

/-- A line of a listing is one line. -/
theorem ShowLine.notMem_text {line : ShowLine} (h : line.Proper) {x : Char} (hx : x = '\n' ∨ x = '\r') :
    x ∉ line.text := by
  cases line with
  | other text => rcases hx with rfl | rfl; exacts [h.1, h.2.1]
  | inet indent a tail =>
    have hdigit : x.isDigit = false := by rcases hx with rfl | rfl <;> decide
    have haddr : ∀ ip : Ipv4Addr, x ∉ ip.toText.toList := by
      intro ip hmem
      rcases Ipv4Addr.mem_toText hmem with h | rfl
      · rw [hdigit] at h; cases h
      · rcases hx with h | h <;> cases h
    have hnum : ∀ n : ℕ, x ∉ n.repr.toList := fun n hmem => by
      have := Text.isDigit_of_mem_repr hmem
      rw [hdigit] at this
      cases this
    have htext : x ∉ a.toText.toList := by
      unfold InetAddr.toText
      cases a.peer with
      | none =>
        simp only [String.toList_append, List.mem_append, not_or]
        exact ⟨⟨haddr _, by rcases hx with rfl | rfl <;> decide⟩, hnum _⟩
      | some peer =>
        simp only [String.toList_append, List.mem_append, not_or]
        exact ⟨⟨⟨⟨haddr _, by rcases hx with rfl | rfl <;> decide⟩, haddr _⟩,
          by rcases hx with rfl | rfl <;> decide⟩, hnum _⟩
    have htail : x ∉ tail := by rcases hx with rfl | rfl; exacts [h.2.1, h.2.2]
    simp only [ShowLine.text, List.mem_append, List.mem_cons, not_or]
    refine ⟨⟨⟨fun hmem => ?_, by rcases hx with rfl | rfl <;> decide⟩, htext⟩, ?_, htail⟩
    · rw [h.1 x hmem] at hx
      rcases hx with h | h <;> cases h
    · rintro rfl
      rcases hx with h | h <;> cases h

theorem lines_flatMap {lines : List ShowLine} (h : ∀ line ∈ lines, line.Proper) :
    Text.lines (lines.flatMap fun line => line.text ++ ['\n']) = lines.map ShowLine.text := by
  induction lines with
  | nil => rfl
  | cons line lines ih =>
    rw [List.forall_mem_cons] at h
    rw [List.flatMap_cons, List.append_assoc, List.singleton_append,
      Text.lines_cons_line (ShowLine.notMem_text h.1 (.inl rfl)),
      Text.stripCr_of_notMem (ShowLine.notMem_text h.1 (.inr rfl)), ih h.2, List.map_cons]

/-- The output has these entries, each on a line of its own, between other lines. -/
def Prints (stdout : String) (entries : List InetAddr) : Prop :=
  ∃ lines : List ShowLine, (∀ line ∈ lines, line.Proper) ∧
    stdout.toList = lines.flatMap (fun line => line.text ++ ['\n']) ∧ lines.filterMap ShowLine.entry = entries

/-- **The addresses are read from the listing.** -/
theorem parse_of_prints {stdout : String} {entries : List InetAddr} (h : Prints stdout entries) :
    parseIpv4Addresses stdout = entries.map InetAddr.addr := by
  obtain ⟨lines, hproper, htext, hentries⟩ := h
  rw [parseIpv4Addresses, htext, lines_flatMap hproper, ← hentries, List.filterMap_map, List.map_filterMap]
  exact List.filterMap_congr fun line hline => ShowLine.parse_text (hproper line hline)

theorem parse_of_lists {stdout : String} {t : AddrTable} (h : Lists stdout t) :
    parseIpv4Addresses stdout = t.entries.map InetAddr.addr :=
  parse_of_prints h

theorem mem_parse_of_lists {stdout : String} {t : AddrTable} {a : Ipv4Addr} (h : Lists stdout t) :
    a ∈ parseIpv4Addresses stdout ↔ t.Has a := by
  rw [parse_of_lists h, List.mem_map]
  rfl

/-! ## Answers -/

/-- The listing of an interface. -/
def AddrTable.listing (t : AddrTable) : String :=
  String.ofList (t.entries.flatMap fun a => (ShowLine.inet "    ".toList a "scope global".toList).text ++ ['\n'])

theorem lists_listing (t : AddrTable) : Lists t.listing t := by
  refine ⟨t.entries.map fun a => .inet "    ".toList a "scope global".toList, ?_, ?_, ?_⟩
  · intro line hline
    obtain ⟨a, -, rfl⟩ := List.mem_map.1 hline
    exact ⟨by decide, by decide, by decide⟩
  · rw [AddrTable.listing, String.toList_ofList, List.flatMap_map]
  · rw [List.filterMap_map]
    exact List.filterMap_some

/-- A command that does what it says where it can, and refuses otherwise. -/
def obey (able : Prop) [Decidable able] (w w' : World) (message : String) : Outcome × World :=
  if able then (.exited ⟨some 0, "", ""⟩, w') else (.exited ⟨some 1, "", message⟩, w)

/-- A host without failures of its own, under a stopped clock, whose `nft` takes the texts that
`accepts` says. -/
def answer (accepts : String → Bool) : Handler HostSig World
  | w, .store o => ((sampleHandler w.db o).1, { w with db := (sampleHandler w.db o).2 })
  | w, .atomicWrite path text => (.ok (), w.write path text)
  | w, .nft .check path => obey ((w.files path).any accepts = true) w w "syntax error"
  | w, .nft .apply path => obey ((w.files path).any accepts = true) w (w.load path) "syntax error"
  | w, .ip (.show interface) => (.exited ⟨some 0, (w.addrs interface).listing, ""⟩, w)
  | w, .ip (.add interface a) =>
    obey (.host a ∉ (w.addrs interface).entries) w (w.addAddr interface a) "RTNETLINK answers: File exists"
  | w, .ip (.del interface a) =>
    obey (.host a ∈ (w.addrs interface).entries) w (w.delAddr interface a)
      "RTNETLINK answers: Cannot assign requested address"
  | w, .connect _ _ => (.connected, w)

theorem commanded_obey (able : Prop) [Decidable able] {able' : Prop} (h : able → able') (w w' : World)
    (message : String) : Commanded able' w w' (obey able w w' message).1 (obey able w w' message).2 := by
  unfold obey
  split
  · rename_i hable
    exact ⟨fun _ => ⟨h hable, rfl⟩, fun hr => absurd hr.2 (by decide), .inr ⟨h hable, rfl⟩⟩
  · refine ⟨fun hs => ?_, fun _ => rfl, .inl rfl⟩
    simp [Outcome.Succeeded, CommandOutput.isSuccess] at hs

/-- **A host that always answers is a host.** -/
theorem answer_env (accepts : String → Bool) (w : World) (o : HostSig.Op) :
    hostEnv w o (answer accepts w o).1 (answer accepts w o).2 := by
  have hfile : ∀ path, (w.files path).any accepts = true → w.files path ≠ none := by
    intro path h hnone
    rw [hnone] at h
    cases h
  cases o with
  | store o => exact ⟨_, sampleHandler_env w.db o, rfl⟩
  | atomicWrite path text => exact .inl ⟨rfl, rfl⟩
  | nft mode path =>
    cases mode with
    | check =>
      have h := commanded_obey _ (hfile path) w w "syntax error"
      exact ⟨h.either.elim id (·.2), fun hs => (h.succeeded hs).1⟩
    | apply => exact commanded_obey _ (hfile path) w _ _
  | ip command =>
    cases command with
    | «show» interface =>
      refine ⟨rfl, fun output h _ => ?_⟩
      cases h
      exact lists_listing _
    | add interface a => exact commanded_obey _ id w _ _
    | del interface a => exact commanded_obey _ id w _ _
  | connect ip port => rfl

/-- A host with two services in its database and nothing else. -/
def sampleWorld : World where
  db := twoServices.2.2
  files _ := none
  kernel := none
  addrs _ := ⟨[], List.nodup_nil⟩

end EdgeRoute
