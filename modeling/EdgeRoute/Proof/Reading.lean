import EdgeRoute.Proof.Render
import EdgeRoute.Spec.Nft

/-!
# The rendered text is read back

* `read_renderNftables`: the text that the renderer emits defines exactly one table, with one
  map entry for each one-to-one mapping, one rule for each port forward and one masquerade rule
  for each target network.
-/

namespace EdgeRoute

open Effect Lex

variable {m : Mapping} {c : EdgeConfig} {rc : NftRenderConfig} {ms : List Mapping} {rest : List Char}

/-- A token that nft reads as one word, and that can stand in quotes. -/
def PlainToken (s : String) : Prop := s ≠ "" ∧ ∀ x ∈ s.toList, Nft.isWordChar x = true

instance (s : String) : Decidable (PlainToken s) := inferInstanceAs (Decidable (_ ∧ _))

/-! ## The table a mapping list stands for -/

def Protocol.l4 : Protocol → Option Nft.L4
  | .tcp => some .tcp
  | .udp => some .udp
  | .all => none

theorem host_le : 32 ≤ 32 := le_rfl

/-- The rule of a port forward. -/
def forwardRule (wanInterface : String) (m : Mapping) : Option Nft.Rule :=
  match m.protocol.l4, m.publicPort, m.targetPort with
  | some l4, some publicPort, some targetPort =>
    some ⟨[.iifname wanInterface, .daddr ⟨m.edgePrivateIp, 32, host_le⟩, .dport l4 publicPort],
      .dnat m.targetIp targetPort⟩
  | _, _, _ => none

/-- The rule that looks one-to-one mappings up. -/
def mapRule : Nft.Rule := ⟨[], .dnatMap "edge_to_target"⟩

def masqueradeRule (netbirdInterface : String) (cidr : Ipv4Net) : Nft.Rule :=
  ⟨[.oifname netbirdInterface, .daddr cidr], .masquerade⟩

def mapElement (m : Mapping) : Ipv4Addr × Ipv4Addr := (m.edgePrivateIp, m.targetIp)

def intendedTable (ms : List Mapping) (c : EdgeConfig) (rc : NftRenderConfig) : Nft.Table where
  name := rc.tableName
  maps := [("edge_to_target", (ms.filter isNftOneToOne).map mapElement)]
  chains := [⟨"prerouting", "prerouting",
      (ms.filter isNftPortForward).filterMap (forwardRule c.wanInterface) ++ [mapRule]⟩,
    ⟨"postrouting", "postrouting", c.targetCidrs.map (masqueradeRule c.netbirdInterface)⟩]

/-! ## Words -/

theorem isWordChar_of_isDigit {x : Char} (h : x.isDigit) : Nft.isWordChar x = true := by
  simp [Nft.isWordChar, Char.isAlphanum, h]

theorem plain_toText (ip : Ipv4Addr) : PlainToken ip.toText := by
  constructor
  · intro h
    have hdot : '.' ∈ ip.toText.toList := by rw [Ipv4Addr.toList_toText]; simp
    rw [h] at hdot
    simp at hdot
  · intro x hx
    rcases Ipv4Addr.mem_toText hx with h | rfl
    · exact isWordChar_of_isDigit h
    · decide

theorem plain_repr (n : ℕ) : PlainToken n.repr := by
  constructor
  · intro h
    have : n.repr.toList = [] := by rw [h]; rfl
    rw [Nat.toList_repr] at this
    exact Nat.toDigits_ne_nil this
  · intro x hx
    exact isWordChar_of_isDigit (Text.isDigit_of_mem_repr hx)

theorem plain_net (net : Ipv4Net) : PlainToken net.toText := by
  have h1 := plain_toText net.addr
  have h2 := plain_repr net.prefixLen
  constructor
  · intro h
    have : net.toText.toList = [] := by rw [h]; rfl
    simp [Ipv4Net.toText, String.toList_append] at this
  · intro x hx
    simp only [Ipv4Net.toText, String.toList_append, List.mem_append] at hx
    rcases hx with (hx | hx) | hx
    · exact h1.2 x hx
    · revert x; decide
    · exact h2.2 x hx

/-- A plain token is a word, and has neither a quote nor a line end in it. -/
theorem PlainToken.notMem {s : String} (h : PlainToken s) {x : Char} (hx : Nft.isWordChar x = false) :
    x ∉ s.toList := fun hmem => by rw [h.2 x hmem] at hx; cases hx

theorem PlainToken.word {s : String} (h : PlainToken s) : (Token.word s).Plain Nft.alphabet := h

theorem PlainToken.quoted {s : String} (h : PlainToken s) : (Token.quoted s).Plain Nft.alphabet :=
  ⟨h.notMem (by decide), h.notMem (by decide)⟩

theorem readNet_addr (ip : Ipv4Addr) : Nft.readNet ip.toText = some ⟨ip, 32, le_rfl⟩ := by
  rw [Nft.readNet, Text.splitOnce_none ip.slash_notMem_toText]
  simp [Nft.readAddr, Ipv4Addr.parse_toText]

theorem readNet_toText (net : Ipv4Net) : Nft.readNet net.toText = some net := by
  have htext : net.toText.toList = net.addr.toText.toList ++ '/' :: Nat.toDigits 10 net.prefixLen := by
    simp [Ipv4Net.toText, Nat.toList_repr]
  simp only [Nft.readNet, htext, Text.splitOnce_append net.addr.slash_notMem_toText, Ipv4Addr.parse_toText,
    Text.parseNat_toDigits, dif_pos net.prefixLen_le]

theorem readPort_repr (p : UInt16) : Nft.readPort p.toNat.repr = some p := by
  rw [Nft.readPort, Nat.toList_repr, Text.parseNat_toDigits]
  simp only
  rw [if_pos p.toNat_lt, UInt16.ofNat_toNat]

theorem readAddr_toText (ip : Ipv4Addr) : Nft.readAddr ip.toText = some ip := Ipv4Addr.parse_toText ip

/-! ## The lines of the text -/

def headLines (name : String) : List (List Piece) :=
  [[⟨0, .word "destroy"⟩, ⟨1, .word "table"⟩, ⟨1, .word "ip"⟩, ⟨1, .word name⟩], [],
    [⟨0, .word "table"⟩, ⟨1, .word "ip"⟩, ⟨1, .word name⟩, ⟨1, .sym '\x7b'⟩],
    [⟨4, .word "map"⟩, ⟨1, .word "edge_to_target"⟩, ⟨1, .sym '\x7b'⟩],
    [⟨8, .word "type"⟩, ⟨1, .word "ipv4_addr"⟩, ⟨1, .sym ':'⟩, ⟨1, .word "ipv4_addr"⟩, ⟨0, .sym ';'⟩],
    [⟨8, .word "elements"⟩, ⟨1, .sym '='⟩, ⟨1, .sym '\x7b'⟩]]

theorem toList_renderHead (name : String) : (renderHead name).toList = text (headLines name) := by
  have h1 : ("destroy table ip " ++ name ++ "\n\n").toList =
      text [[⟨0, .word "destroy"⟩, ⟨1, .word "table"⟩, ⟨1, .word "ip"⟩, ⟨1, .word name⟩], []] := by
    simp [text, line, Piece.chars, Token.chars]
  have h2 : ("table ip " ++ name ++ " \x7b\n").toList =
      text [[⟨0, .word "table"⟩, ⟨1, .word "ip"⟩, ⟨1, .word name⟩, ⟨1, .sym '\x7b'⟩]] := by
    simp [text, line, Piece.chars, Token.chars]
  have h3 : ("    map edge_to_target \x7b\n" ++ "        type ipv4_addr : ipv4_addr;\n" ++
      "        elements = \x7b\n").toList =
      text [[⟨4, .word "map"⟩, ⟨1, .word "edge_to_target"⟩, ⟨1, .sym '\x7b'⟩],
        [⟨8, .word "type"⟩, ⟨1, .word "ipv4_addr"⟩, ⟨1, .sym ':'⟩, ⟨1, .word "ipv4_addr"⟩, ⟨0, .sym ';'⟩],
        [⟨8, .word "elements"⟩, ⟨1, .sym '='⟩, ⟨1, .sym '\x7b'⟩]] := by
    simp [text, line, Piece.chars, Token.chars]
  have htext : renderHead name = ("destroy table ip " ++ name ++ "\n\n") ++
      (("table ip " ++ name ++ " \x7b\n") ++ ("    map edge_to_target \x7b\n" ++
        "        type ipv4_addr : ipv4_addr;\n" ++ "        elements = \x7b\n")) := by
    unfold renderHead
    simp only [String.append_assoc]
  rw [htext, String.toList_append, h1, String.toList_append, h2, h3, text, text, text, ← List.flatMap_append,
    ← List.flatMap_append]
  rfl

def elementLine (m : Mapping) : List Piece :=
  [⟨12, .word m.edgePrivateIp.toText⟩, ⟨1, .sym ':'⟩, ⟨1, .word m.targetIp.toText⟩, ⟨0, .sym ','⟩]

theorem toList_renderElement (m : Mapping) : (renderElement m).toList = line (elementLine m) ++ ['\n'] := by
  simp [renderElement, elementLine, line, Piece.chars, Token.chars]

/-- A chain: its first lines. -/
def chainLines (hook priority : String) : List (List Piece) :=
  [[⟨4, .word "chain"⟩, ⟨1, .word hook⟩, ⟨1, .sym '\x7b'⟩],
    [⟨8, .word "type"⟩, ⟨1, .word "nat"⟩, ⟨1, .word "hook"⟩, ⟨1, .word hook⟩, ⟨1, .word "priority"⟩,
      ⟨1, .word priority⟩, ⟨0, .sym ';'⟩, ⟨1, .word "policy"⟩, ⟨1, .word "accept"⟩, ⟨0, .sym ';'⟩], []]

def preroutingLines : List (List Piece) :=
  [[⟨8, .sym '\x7d'⟩], [⟨4, .sym '\x7d'⟩], []] ++ chainLines "prerouting" "dstnat"

theorem toList_renderPrerouting : renderPrerouting.toList = text preroutingLines := by
  simp [renderPrerouting, preroutingLines, chainLines, text, line, Piece.chars, Token.chars]

def forwardLine (wan l4 : String) (m : Mapping) (publicPort targetPort : UInt16) : List Piece :=
  [⟨8, .word "iifname"⟩, ⟨1, .quoted wan⟩, ⟨1, .word "ip"⟩, ⟨1, .word "daddr"⟩,
    ⟨1, .word m.edgePrivateIp.toText⟩, ⟨1, .word l4⟩, ⟨1, .word "dport"⟩, ⟨1, .word publicPort.toNat.repr⟩,
    ⟨1, .word "dnat"⟩, ⟨1, .word "to"⟩, ⟨1, .word m.targetIp.toText⟩, ⟨0, .sym ':'⟩,
    ⟨0, .word targetPort.toNat.repr⟩]

def postroutingLines : List (List Piece) :=
  [[⟨8, .word "dnat"⟩, ⟨1, .word "to"⟩, ⟨1, .word "ip"⟩, ⟨1, .word "daddr"⟩, ⟨1, .word "map"⟩,
    ⟨1, .word "@edge_to_target"⟩], [⟨4, .sym '\x7d'⟩], []] ++ chainLines "postrouting" "srcnat"

theorem toList_renderPostrouting : renderPostrouting.toList = text postroutingLines := by decide +kernel

def masqueradeLine (netbird : String) (cidr : Ipv4Net) : List Piece :=
  [⟨8, .word "oifname"⟩, ⟨1, .quoted netbird⟩, ⟨1, .word "ip"⟩, ⟨1, .word "daddr"⟩, ⟨1, .word cidr.toText⟩,
    ⟨1, .word "masquerade"⟩]

theorem toList_renderMasquerade (netbird : String) (cidr : Ipv4Net) :
    (renderMasquerade netbird cidr).toList = line (masqueradeLine netbird cidr) ++ ['\n'] := by
  have key : ∀ net : String, ("        oifname \"" ++ netbird ++ "\" ip daddr " ++ net ++ " masquerade\n").toList =
      line [⟨8, .word "oifname"⟩, ⟨1, .quoted netbird⟩, ⟨1, .word "ip"⟩, ⟨1, .word "daddr"⟩, ⟨1, .word net⟩,
        ⟨1, .word "masquerade"⟩] ++ ['\n'] := by
    intro net
    simp [line, Piece.chars, Token.chars]
  exact key cidr.toText

def tailLines : List (List Piece) := [[⟨4, .sym '\x7d'⟩], [⟨0, .sym '\x7d'⟩]]

theorem toList_renderTail : ("    \x7d\n" ++ "\x7d\n").toList = text tailLines := by
  simp [tailLines, text, line, Piece.chars, Token.chars]

theorem toList_join (ss : List String) : (String.join ss).toList = ss.flatMap String.toList := by
  have key : ∀ acc : String, (ss.foldl (· ++ ·) acc).toList = acc.toList ++ ss.flatMap String.toList := by
    induction ss with
    | nil => simp
    | cons s ss ih => intro acc; rw [List.foldl_cons, ih, String.toList_append]; simp
  simpa [String.join] using key ""

/-- Texts of one line each, joined. -/
theorem toList_join_map {α : Type} {f : α → String} {g : α → List Piece} (as : List α)
    (h : ∀ a, (f a).toList = line (g a) ++ ['\n']) : (String.join (as.map f)).toList = text (as.map g) := by
  simp only [toList_join, text, List.flatMap_map, h]

/-- What a rendered port forward is made of. -/
theorem renderPortForward_parts {wan rule : String} (h : renderPortForward wan m = .ok rule) :
    ∃ l4 p t, nftProtocol m.protocol = .ok l4 ∧ m.publicPort = some p ∧ m.targetPort = some t ∧
      rule.toList = text [forwardLine wan l4 m p t] := by
  unfold renderPortForward at h
  simp only [except_bind_ok] at h
  obtain ⟨l4, hl4, p, hp, t, ht, h⟩ := h
  have hport : ∀ {o : Option UInt16} {message : String} {x : UInt16}, expect message o = .ok x → o = some x := by
    intro o message x hx
    cases o with
    | none => cases hx
    | some y => cases hx; rfl
  refine ⟨l4, p, t, hl4, hport hp, hport ht, ?_⟩
  rw [← Except.ok.inj h]
  simp [text, forwardLine, line, Piece.chars, Token.chars]

/-! ## Lines -/

/-- Printed lines are steps of the reader. -/
theorem lines_text {r s : Nft.Reader} {ls : List (List Piece)} (hs : ∀ ps ∈ ls, Spaced Nft.alphabet ps)
    (hr : (ls.map (List.map Piece.token)).foldlM Nft.Reader.line r = some s) :
    r.lines (Text.splitLines (text ls ++ rest)) = s.lines (Text.splitLines rest) := by
  induction ls generalizing r with
  | nil => cases hr; rfl
  | cons ps ls ih =>
    rw [List.forall_mem_cons] at hs
    rw [List.map_cons, List.foldlM_cons] at hr
    obtain ⟨r₁, hr₁, hr⟩ := Option.bind_eq_some_iff.1 hr
    have htext : text (ps :: ls) ++ rest = line ps ++ '\n' :: (text ls ++ rest) := by simp [text]
    rw [htext, Text.splitLines_cons_line (newline_notMem_line hs.1), Nft.Reader.lines, lex_line hs.1]
    simp only [hr₁]
    exact ih hs.2 hr

section Parts

variable {r : Nft.Reader} {t : Nft.Table}

theorem read_head {name : String} (hn : PlainToken name) :
    Nft.Reader.lines ⟨[], .top⟩ (Text.splitLines ((renderHead name).toList ++ rest)) =
      Nft.Reader.lines ⟨[], .elements ⟨name, [], []⟩ "edge_to_target" []⟩ (Text.splitLines rest) := by
  have hword := hn.word
  rw [toList_renderHead]
  exact lines_text (by simp +decide [headLines, Spaced, Token.isWord, hword]) rfl

/-- Lines of one kind, one for each member of a list. -/
theorem lines_map {α β : Type} {as : List α} {f : α → List Piece} {g : α → β} (place : List β → Nft.Reader)
    (hs : ∀ a ∈ as, Spaced Nft.alphabet (f a))
    (hstep : ∀ a bs, (place bs).line ((f a).map Piece.token) = some (place (bs ++ [g a]))) (bs : List β) :
    (place bs).lines (Text.splitLines (text (as.map f) ++ rest)) =
      (place (bs ++ as.map g)).lines (Text.splitLines rest) := by
  induction as generalizing bs with
  | nil => simp [text]
  | cons a as ih =>
    rw [List.forall_mem_cons] at hs
    have htext : text ((a :: as).map f) ++ rest = text [f a] ++ (text (as.map f) ++ rest) := by simp [text]
    have hone : ([f a].map (List.map Piece.token)).foldlM Nft.Reader.line (place bs) =
        some (place (bs ++ [g a])) := by simp [hstep]
    rw [htext, lines_text (by simpa using hs.1) hone, ih hs.2]
    simp

theorem spaced_elementLine (m : Mapping) : Spaced Nft.alphabet (elementLine m) := by
  have h1 := (plain_toText m.edgePrivateIp).word
  have h2 := (plain_toText m.targetIp).word
  simp +decide [elementLine, Spaced, Token.isWord, h1, h2]

theorem read_elements (t : Nft.Table) (ms : List Mapping) :
    Nft.Reader.lines ⟨[], .elements t "edge_to_target" []⟩
        (Text.splitLines ((String.join (ms.map renderElement)).toList ++ rest)) =
      Nft.Reader.lines ⟨[], .elements t "edge_to_target" (ms.map mapElement)⟩ (Text.splitLines rest) := by
  have hstep : ∀ (m : Mapping) es, Nft.Reader.line ⟨[], .elements t "edge_to_target" es⟩
      ((elementLine m).map Piece.token) =
        some ⟨[], .elements t "edge_to_target" (es ++ [mapElement m])⟩ := by
    intro m es
    simp only [elementLine, List.map_cons, List.map_nil, Nft.Reader.line, Nft.Reader.inElements,
      readAddr_toText, mapElement, reduceCtorEq, if_false]
  rw [toList_join_map ms toList_renderElement]
  exact lines_map (fun es => ⟨[], .elements t "edge_to_target" es⟩)
    (fun m _ => spaced_elementLine m) hstep []

/-! ### The prerouting chain -/

theorem read_prerouting (name : String) (es : List (Ipv4Addr × Ipv4Addr)) :
    Nft.Reader.lines ⟨[], .elements ⟨name, [], []⟩ "edge_to_target" es⟩
        (Text.splitLines (renderPrerouting.toList ++ rest)) =
      Nft.Reader.lines ⟨[], .rules ⟨name, [("edge_to_target", es)], []⟩ ⟨"prerouting", "prerouting", []⟩⟩
        (Text.splitLines rest) := by
  rw [toList_renderPrerouting]
  exact lines_text (by simp +decide [preroutingLines, chainLines, Spaced]) rfl

theorem spaced_forwardLine {wan l4 : String} (hwan : PlainToken wan) (hl4 : PlainToken l4)
    (m : Mapping) (p t : UInt16) : Spaced Nft.alphabet (forwardLine wan l4 m p t) := by
  have h1 := hwan.quoted
  have h2 := hl4.word
  have h3 := (plain_toText m.edgePrivateIp).word
  have h4 := (plain_toText m.targetIp).word
  have h5 := (plain_repr p.toNat).word
  have h6 := (plain_repr t.toNat).word
  simp +decide [forwardLine, Spaced, Token.isWord, h1, h2, h3, h4, h5, h6]

theorem readRule_dnat {addr port : String} {a : Ipv4Addr} {p : UInt16} (ha : Nft.readAddr addr = some a)
    (hp : Nft.readPort port = some p) :
    Nft.readRule [.word "dnat", .word "to", .word addr, .sym ':', .word port] = some ⟨[], .dnat a p⟩ := by
  rw [Nft.readRule]
  · simp [Nft.readStatement, ha, hp]
  all_goals simp

theorem readRule_dport {l4 port : String} {l : Nft.L4} {p : UInt16} {ts : List Token} {rule : Nft.Rule}
    (hl : Nft.readL4 l4 = some l) (hp : Nft.readPort port = some p)
    (hr : Nft.readRule ts = some rule) :
    Nft.readRule (.word l4 :: .word "dport" :: .word port :: ts) =
      some { rule with guards := .dport l p :: rule.guards } := by
  rw [Nft.readRule]
  simp [hl, hp, hr]

theorem readRule_daddr {addr : String} {net : Ipv4Net} {ts : List Token} {rule : Nft.Rule}
    (ha : Nft.readNet addr = some net) (hr : Nft.readRule ts = some rule) :
    Nft.readRule (.word "ip" :: .word "daddr" :: .word addr :: ts) =
      some { rule with guards := .daddr net :: rule.guards } := by
  rw [Nft.readRule, ha, hr]

theorem readRule_forwardLine {wan l4 : String} {l : Nft.L4} (hl : Nft.readL4 l4 = some l)
    (m : Mapping) (p t : UInt16) : Nft.readRule ((forwardLine wan l4 m p t).map Piece.token) =
      some ⟨[.iifname wan, .daddr ⟨m.edgePrivateIp, 32, le_rfl⟩, .dport l p], .dnat m.targetIp t⟩ := by
  have h1 := readRule_dnat (readAddr_toText m.targetIp) (readPort_repr t)
  have h2 := readRule_dport hl (readPort_repr p) h1
  have h3 := readRule_daddr (readNet_addr m.edgePrivateIp) h2
  simp only [forwardLine, List.map_cons, List.map_nil]
  rw [Nft.readRule, h3]
  rfl

/-- A rendered port forward is one line, and read as the rule of the mapping. -/
theorem renderPortForward_line {wan rule : String} (hwan : PlainToken wan)
    (h : renderPortForward wan m = .ok rule) :
    ∃ ps r, rule.toList = text [ps] ∧ Spaced Nft.alphabet ps ∧ forwardRule wan m = some r ∧
      Nft.readRule (ps.map Piece.token) = some r := by
  obtain ⟨l4, p, t, hl4, hp, ht, htext⟩ := renderPortForward_parts h
  have hproto : ∃ l, m.protocol.l4 = some l ∧ Nft.readL4 l4 = some l ∧ PlainToken l4 := by
    cases hm : m.protocol with
    | all => rw [hm] at hl4; cases hl4
    | tcp => rw [hm] at hl4; cases hl4; exact ⟨.tcp, rfl, rfl, by decide⟩
    | udp => rw [hm] at hl4; cases hl4; exact ⟨.udp, rfl, rfl, by decide⟩
  obtain ⟨l, hl, hread, hplain⟩ := hproto
  refine ⟨forwardLine wan l4 m p t, _, htext, spaced_forwardLine hwan hplain m p t, ?_,
    readRule_forwardLine hread m p t⟩
  rw [forwardRule, hl, hp, ht]

/-- A line that is read as a rule is added to the chain. -/
theorem line_rule {c : Nft.Chain} {ts : List Token} {rule : Nft.Rule} (h : Nft.readRule ts = some rule) :
    Nft.Reader.line ⟨[], .rules t c⟩ ts = some ⟨[], .rules t { c with rules := c.rules ++ [rule] }⟩ := by
  have hts : ts ≠ [] := by rintro rfl; cases h
  have hend : ts ≠ [.sym '\x7d'] := by rintro rfl; cases h
  rw [Nft.Reader.line, if_neg hts]
  simp only
  rw [Nft.Reader.inRules, h]
  · rfl
  · exact hend

theorem read_portForwards {wan rules : String} (hwan : PlainToken wan) (name hook : String)
    (rs : List Nft.Rule) (h : renderPortForwards wan ms = .ok rules) :
    Nft.Reader.lines ⟨[], .rules t ⟨name, hook, rs⟩⟩ (Text.splitLines (rules.toList ++ rest)) =
      Nft.Reader.lines ⟨[], .rules t ⟨name, hook, rs ++ ms.filterMap (forwardRule wan)⟩⟩
        (Text.splitLines rest) := by
  induction ms generalizing rs rules with
  | nil => cases h; simp
  | cons m ms ih =>
    simp only [renderPortForwards, except_bind_ok] at h
    obtain ⟨rule, hrule, rules', hrules', h⟩ := h
    obtain ⟨ps, r, htext, hs, hr, hread⟩ := renderPortForward_line hwan hrule
    rw [← Except.ok.inj h, String.toList_append, List.append_assoc, htext]
    have hone : ([ps].map (List.map Piece.token)).foldlM Nft.Reader.line ⟨[], .rules t ⟨name, hook, rs⟩⟩ =
        some ⟨[], .rules t ⟨name, hook, rs ++ [r]⟩⟩ := by simp [line_rule hread]
    rw [lines_text (by simpa using hs) hone, ih (rs ++ [r]) hrules', List.filterMap_cons_some hr]
    simp

/-- The empty line before the map rule, if there is one. -/
theorem read_blank (b : Bool) :
    r.lines (Text.splitLines ((if b then "" else "\n").toList ++ rest)) = r.lines (Text.splitLines rest) := by
  cases b with
  | true => rfl
  | false =>
    have htext : ("\n" : String).toList = text [[]] := by simp [text, line]
    simp only [Bool.false_eq_true, if_false]
    rw [htext]
    exact lines_text (by simp [Spaced]) rfl

/-! ### The postrouting chain -/

theorem read_postrouting (maps : List (String × List (Ipv4Addr × Ipv4Addr))) (name : String)
    (rs : List Nft.Rule) :
    Nft.Reader.lines ⟨[], .rules ⟨name, maps, []⟩ ⟨"prerouting", "prerouting", rs⟩⟩
        (Text.splitLines (renderPostrouting.toList ++ rest)) =
      Nft.Reader.lines ⟨[], .rules ⟨name, maps, [⟨"prerouting", "prerouting", rs ++ [mapRule]⟩]⟩
        ⟨"postrouting", "postrouting", []⟩⟩ (Text.splitLines rest) := by
  rw [toList_renderPostrouting]
  exact lines_text (by simp +decide [postroutingLines, chainLines, Spaced]) rfl

theorem readRule_masqueradeLine (netbird : String) (cidr : Ipv4Net) :
    Nft.readRule ((masqueradeLine netbird cidr).map Piece.token) = some (masqueradeRule netbird cidr) := by
  have h1 : Nft.readRule [.word "masquerade"] = some ⟨[], .masquerade⟩ := by decide
  have h2 := readRule_daddr (readNet_toText cidr) h1
  simp only [masqueradeLine, List.map_cons, List.map_nil]
  rw [Nft.readRule, h2]
  rfl

theorem read_masquerades {netbird : String} (hn : PlainToken netbird) (name hook : String)
    (cidrs : List Ipv4Net) :
    Nft.Reader.lines ⟨[], .rules t ⟨name, hook, []⟩⟩
        (Text.splitLines ((String.join (cidrs.map (renderMasquerade netbird))).toList ++ rest)) =
      Nft.Reader.lines ⟨[], .rules t ⟨name, hook, cidrs.map (masqueradeRule netbird)⟩⟩
        (Text.splitLines rest) := by
  have hspaced : ∀ cidr ∈ cidrs, Spaced Nft.alphabet (masqueradeLine netbird cidr) := by
    intro cidr _
    have h1 := hn.quoted
    have h2 := (plain_net cidr).word
    simp +decide [masqueradeLine, Spaced, Token.isWord, h1, h2]
  rw [toList_join_map cidrs (toList_renderMasquerade netbird)]
  exact lines_map (fun rs => ⟨[], .rules t ⟨name, hook, rs⟩⟩) hspaced
    (fun cidr _ => line_rule (readRule_masqueradeLine netbird cidr)) []

theorem read_tail (t : Nft.Table) (c : Nft.Chain) :
    Nft.Reader.lines ⟨[], .rules t c⟩ (Text.splitLines ("    \x7d\n" ++ "\x7d\n").toList) =
      some ⟨[{ t with chains := t.chains ++ [c] }], .top⟩ := by
  have htext : ("    \x7d\n" ++ "\x7d\n").toList = text tailLines ++ [] := by
    rw [toList_renderTail, List.append_nil]
  rw [htext, lines_text (by simp +decide [tailLines, Spaced]) rfl]
  rfl

end Parts

/-! ## The whole text -/

/-- The parts of the emitted text. -/
theorem toList_renderNftables {text : String} (h : renderNftables ms c rc = .ok text) :
    ∃ rules, renderPortForwards c.wanInterface (ms.filter isNftPortForward) = .ok rules ∧
      text.toList = (renderHead rc.tableName).toList ++
        ((String.join ((ms.filter isNftOneToOne).map renderElement)).toList ++ (renderPrerouting.toList ++
        (rules.toList ++ ((if ms.any isNftOneToOne then "" else "\n").toList ++ (renderPostrouting.toList ++
        ((String.join (c.targetCidrs.map (renderMasquerade c.netbirdInterface))).toList ++
        ("    \x7d\n" ++ "\x7d\n").toList)))))) := by
  unfold renderNftables at h
  split at h
  · cases h
  simp only [renderRuleset, except_bind_ok] at h
  obtain ⟨rules, hrules, h⟩ := h
  refine ⟨rules, hrules, ?_⟩
  rw [← Except.ok.inj h]
  simp only [String.append_assoc]
  rw [String.toList_append, String.toList_append, String.toList_append, String.toList_append,
    String.toList_append, String.toList_append, String.toList_append]

/-- **The emitted text defines exactly the intended table.** -/
theorem read_renderNftables {text : String} (hwan : PlainToken c.wanInterface)
    (hnetbird : PlainToken c.netbirdInterface) (hname : PlainToken rc.tableName)
    (h : renderNftables ms c rc = .ok text) : Nft.read text = some [intendedTable ms c rc] := by
  obtain ⟨rules, hrules, htext⟩ := toList_renderNftables h
  unfold Nft.read
  rw [htext, read_head hname, read_elements, read_prerouting, read_portForwards hwan _ _ _ hrules, read_blank,
    read_postrouting, read_masquerades hnetbird, read_tail]
  rfl

end EdgeRoute
