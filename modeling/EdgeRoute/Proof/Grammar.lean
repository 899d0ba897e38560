import EdgeRoute.Proof.Networks
import EdgeRoute.Proof.Reading
import EdgeRoute.Spec.Grammar

/-!
# The rendered text as nft reads it

* `names_stand_iff`: **the text says what was meant exactly when the interface names in it stand as they
  are written** and have no quotes that end their strings early.
* `sentence_iff`: **the text is a sentence exactly when some one-to-one mapping is forwarded**, since the
  braces of `elements` are written in any case and are empty otherwise.
-/

namespace EdgeRoute

open Effect Lex

variable {m : Mapping} {c : EdgeConfig} {rc : NftRenderConfig} {ms : List Mapping} {text : String}
  {rest : List Char}

/-! ## The statements of the text -/

/-- The line of a port forward. -/
def forwardPieces (wanInterface : String) (m : Mapping) : Option (List Piece) :=
  match nftProtocol m.protocol, m.publicPort, m.targetPort with
  | .ok l4, some publicPort, some targetPort => some (forwardLine wanInterface l4 m publicPort targetPort)
  | _, _, _ => none

theorem toList_renderPortForwards {wan rules : String} (h : renderPortForwards wan ms = .ok rules) :
    rules.toList = Lex.text (ms.filterMap (forwardPieces wan)) := by
  induction ms generalizing rules with
  | nil => cases h; rfl
  | cons m ms ih =>
    simp only [renderPortForwards, except_bind_ok] at h
    obtain ⟨rule, hrule, rules', hrules', h⟩ := h
    obtain ⟨l4, p, t, hl4, hp, ht, htext⟩ := renderPortForward_parts hrule
    have hpieces : forwardPieces wan m = some (forwardLine wan l4 m p t) := by
      unfold forwardPieces
      rw [hl4, hp, ht]
    rw [← Except.ok.inj h, String.toList_append, htext, ih hrules', List.filterMap_cons_some hpieces]
    simp [Lex.text]

/-- The lines that follow the elements. -/
def laterLines (ms : List Mapping) (c : EdgeConfig) : List (List Piece) :=
  (ms.filter isNftPortForward).filterMap (forwardPieces c.wanInterface) ++
    ((if ms.any isNftOneToOne then [] else [[]]) ++ (postroutingLines ++
      (c.targetCidrs.map (masqueradeLine c.netbirdInterface) ++ tailLines)))

theorem text_append (ls ls' : List (List Piece)) : Lex.text (ls ++ ls') = Lex.text ls ++ Lex.text ls' := by
  simp [Lex.text]

/-- **The emitted text is made of lines**, whatever the names in it are. -/
theorem toList_of_render (h : renderNftables ms c rc = .ok text) : text.toList =
    Lex.text (headLines rc.tableName ++ ((ms.filter isNftOneToOne).map elementLine ++
      (preroutingLines ++ laterLines ms c))) := by
  obtain ⟨rules, hrules, htext⟩ := toList_renderNftables h
  have hblank : (if ms.any isNftOneToOne then "" else "\n").toList =
      Lex.text (if ms.any isNftOneToOne then [] else [[]]) := by
    split <;> rfl
  rw [htext, toList_renderHead, toList_join_map _ toList_renderElement, toList_renderPrerouting,
    toList_renderPortForwards hrules, hblank, toList_renderPostrouting,
    toList_join_map _ (toList_renderMasquerade c.netbirdInterface), toList_renderTail]
  simp only [laterLines, text_append]

theorem plain_of_isIdentifier {s : String} (h : Nft.isIdentifier s = true) : PlainToken s := by
  unfold Nft.isIdentifier at h
  split at h
  · rename_i x xs hs
    simp only [Bool.and_eq_true, Bool.or_eq_true, beq_iff_eq, List.all_eq_true] at h
    refine ⟨by rintro rfl; simp at hs, ?_⟩
    rw [hs, List.forall_mem_cons]
    refine ⟨?_, h.1.2⟩
    rcases h.1.1 with hx | rfl
    · simp [Nft.isWordChar, Char.isAlphanum, hx]
    · decide
  · cases h

/-! ### Lines end where they should -/

theorem apart_headLines (hname : Nft.isIdentifier rc.tableName = true) :
    ∀ ps ∈ headLines rc.tableName, Apart Nft.alphabet ps := by
  have hword : (Token.word rc.tableName).Closed Nft.alphabet := plain_of_isIdentifier hname
  simp +decide [headLines, Apart, Token.isWord, hword]

theorem apart_elementLine (m : Mapping) : Apart Nft.alphabet (elementLine m) := (spaced_elementLine m).apart

theorem apart_preroutingLines : ∀ ps ∈ preroutingLines, Apart Nft.alphabet ps := by
  simp +decide [preroutingLines, chainLines, Apart]

theorem apart_postroutingLines : ∀ ps ∈ postroutingLines, Apart Nft.alphabet ps := by
  simp +decide [postroutingLines, chainLines, Apart]

theorem apart_tailLines : ∀ ps ∈ tailLines, Apart Nft.alphabet ps := by
  simp +decide [tailLines, Apart]

theorem apart_forwardLine {wan l4 : String} (hwan : '"' ∉ wan.toList) (hl4 : PlainToken l4) (m : Mapping)
    (p t : UInt16) : Apart Nft.alphabet (forwardLine wan l4 m p t) := by
  have h1 : (Token.quoted wan).Closed Nft.alphabet := hwan
  have h2 : (Token.word l4).Closed Nft.alphabet := hl4
  have h3 : (Token.word m.edgePrivateIp.toText).Closed Nft.alphabet := plain_toText m.edgePrivateIp
  have h4 : (Token.word m.targetIp.toText).Closed Nft.alphabet := plain_toText m.targetIp
  have h5 : (Token.word p.toNat.repr).Closed Nft.alphabet := plain_repr p.toNat
  have h6 : (Token.word t.toNat.repr).Closed Nft.alphabet := plain_repr t.toNat
  simp +decide [forwardLine, Apart, Token.isWord, h1, h2, h3, h4, h5, h6]

theorem apart_masqueradeLine {netbird : String} (hn : '"' ∉ netbird.toList) (cidr : Ipv4Net) :
    Apart Nft.alphabet (masqueradeLine netbird cidr) := by
  have h1 : (Token.quoted netbird).Closed Nft.alphabet := hn
  have h2 : (Token.word cidr.toText).Closed Nft.alphabet := plain_net cidr
  simp +decide [masqueradeLine, Apart, Token.isWord, h1, h2]

/-- The two protocols of port forwards. -/
theorem nftProtocol_ok {pr : Protocol} {l4 : String} (h : nftProtocol pr = .ok l4) :
    (pr = .tcp ∧ l4 = "tcp") ∨ (pr = .udp ∧ l4 = "udp") := by
  cases pr with
  | all => cases h
  | tcp => cases h; exact .inl ⟨rfl, rfl⟩
  | udp => cases h; exact .inr ⟨rfl, rfl⟩

theorem forwardPieces_some {wan : String} {ps : List Piece} (h : forwardPieces wan m = some ps) :
    ∃ l4 p t, PlainToken l4 ∧ ps = forwardLine wan l4 m p t ∧
      forwardStatement wan m = some (ps.map Piece.token) := by
  unfold forwardPieces at h
  split at h
  · rename_i l4 p t hl4 hp ht
    cases h
    rcases nftProtocol_ok hl4 with ⟨hm, rfl⟩ | ⟨hm, rfl⟩
    · refine ⟨"tcp", p, t, by decide, rfl, ?_⟩
      rw [forwardStatement, hm, hp, ht]
      rfl
    · refine ⟨"udp", p, t, by decide, rfl, ?_⟩
      rw [forwardStatement, hm, hp, ht]
      rfl
  · cases h

theorem apart_laterLines (hc : CleanStrings ms c) : ∀ ps ∈ laterLines ms c, Apart Nft.alphabet ps := by
  intro ps hps
  simp only [laterLines, List.mem_append] at hps
  rcases hps with hps | hps | hps | hps | hps
  · obtain ⟨m, hm, hpieces⟩ := List.mem_filterMap.1 hps
    obtain ⟨l4, p, t, hl4, rfl, -⟩ := forwardPieces_some hpieces
    have hwan := hc.1 (List.any_eq_true.2 ⟨m, List.mem_filter.1 hm⟩)
    exact apart_forwardLine hwan hl4 m p t
  · split at hps
    · cases hps
    · rw [List.mem_singleton] at hps
      subst hps
      trivial
  · exact apart_postroutingLines ps hps
  · obtain ⟨cidr, hcidr, rfl⟩ := List.mem_map.1 hps
    exact apart_masqueradeLine (hc.2 (List.ne_nil_of_mem hcidr)) cidr
  · exact apart_tailLines ps hps

/-! ### Lines and statements -/

theorem lineStatements_headLines (name : String) : lineStatements (headLines name) =
    [[.word "destroy", .word "table", .word "ip", .word name],
      [.word "table", .word "ip", .word name, .sym '\x7b'],
      [.word "map", .word "edge_to_target", .sym '\x7b'],
      [.word "type", .word "ipv4_addr", .sym ':', .word "ipv4_addr"],
      [.word "elements", .sym '=', .sym '\x7b']] := rfl

theorem lineStatements_elements (ms : List Mapping) :
    lineStatements (ms.map elementLine) = ms.map elementStatement :=
  lineStatements_map ms (fun _ => rfl) (by simp [elementStatement])

theorem lineStatements_forwards (wan : String) (ms : List Mapping) :
    lineStatements (ms.filterMap (forwardPieces wan)) = ms.filterMap (forwardStatement wan) := by
  induction ms with
  | nil => rfl
  | cons m ms ih =>
    cases hps : forwardPieces wan m with
    | none =>
      have hst : forwardStatement wan m = none := by
        unfold forwardPieces at hps
        cases hm : m.protocol <;> cases hp : m.publicPort <;> cases ht : m.targetPort <;>
          simp [forwardStatement, nftProtocol, hm, hp, ht] at hps ⊢
      rw [List.filterMap_cons_none hps, List.filterMap_cons_none hst, ih]
    | some ps =>
      obtain ⟨l4, p, t, -, rfl, hst⟩ := forwardPieces_some hps
      have hone : lineStatements [forwardLine wan l4 m p t] = [(forwardLine wan l4 m p t).map Piece.token] := rfl
      rw [List.filterMap_cons_some hps, List.filterMap_cons_some hst, ← ih, ← List.singleton_append,
        lineStatements_append, hone]
      rfl

theorem lineStatements_masquerades (netbird : String) (cidrs : List Ipv4Net) :
    lineStatements (cidrs.map (masqueradeLine netbird)) = cidrs.map (masqueradeStatement netbird) :=
  lineStatements_map cidrs (fun _ => rfl) (by simp [masqueradeStatement])

theorem lineStatements_blank (b : Bool) : lineStatements (if b then [] else [[]]) = [] := by
  cases b <;> rfl

/-- The rule that looks the map up, and the chain after it. -/
def postroutingStatements : List (List Token) :=
  [[.word "dnat", .word "to", .word "ip", .word "daddr", .word "map", .word "@edge_to_target"],
    [.sym '\x7d']] ++ chainStatements "postrouting" "srcnat"

/-- The end of the map, and the chain after it. -/
def preroutingStatements : List (List Token) := [.sym '\x7d'] :: chainStatements "prerouting" "dstnat"

theorem lineStatements_laterLines : lineStatements (laterLines ms c) =
    (ms.filter isNftPortForward).filterMap (forwardStatement c.wanInterface) ++
      (postroutingStatements ++
      (c.targetCidrs.map (masqueradeStatement c.netbirdInterface) ++ [[.sym '\x7d'], [.sym '\x7d']])) := by
  have hpost : lineStatements postroutingLines = postroutingStatements := rfl
  have htail : lineStatements tailLines = [[.sym '\x7d'], [.sym '\x7d']] := rfl
  rw [laterLines, lineStatements_append, lineStatements_forwards, lineStatements_append, lineStatements_blank,
    List.nil_append, lineStatements_append, hpost, lineStatements_append, lineStatements_masquerades, htail]

theorem semicolon_apart : Nft.alphabet.isWord ';' = false := by decide

/-- **With clean strings, the text is read as the intended statements.** -/
theorem statements_of_render (hname : Nft.isIdentifier rc.tableName = true) (hc : CleanStrings ms c)
    (h : renderNftables ms c rc = .ok text) :
    statements Nft.alphabet text.toList = some (intendedStatements ms c rc) := by
  have hpre : lineStatements preroutingLines = [.sym '\x7d'] :: preroutingStatements := rfl
  have hapart : ∀ ps ∈ headLines rc.tableName ++ ((ms.filter isNftOneToOne).map elementLine ++
      (preroutingLines ++ laterLines ms c)), Apart Nft.alphabet ps := by
    intro ps hps
    simp only [List.mem_append] at hps
    rcases hps with hps | hps | hps | hps
    · exact apart_headLines hname ps hps
    · obtain ⟨m, -, rfl⟩ := List.mem_map.1 hps
      exact apart_elementLine m
    · exact apart_preroutingLines ps hps
    · exact apart_laterLines hc ps hps
  rw [toList_of_render h, statements_text semicolon_apart hapart, lineStatements_append,
    lineStatements_headLines, lineStatements_append, lineStatements_elements, lineStatements_append, hpre,
    lineStatements_laterLines]
  simp only [intendedStatements, preroutingStatements, postroutingStatements, List.append_assoc,
    List.cons_append, List.nil_append]

/-! ## Interface names -/

/-- **A name that the validator accepts is one the kernel allows exactly when it stands as written.** -/
theorem linuxName_iff {field name : String} (h : validateInterfaceName field name = .ok ()) :
    LinuxName name ↔ StandsAsWritten name := by
  unfold validateInterfaceName at h
  simp only [except_seq_ok, rejectIf_ok, Bool.or_eq_false_iff, beq_eq_false_iff_ne, ne_eq,
    List.contains_eq_mem, decide_eq_false_iff_not] at h
  obtain ⟨hempty, -, ⟨⟨hslash, hnul⟩, hdot⟩, hdots⟩ := h
  have hmem : ∀ x : Char, Text.isWhite x = false → x ∉ (Text.trim name).toList → x ∉ name.toList := by
    intro x hx hnot hin
    refine hnot ?_
    rw [Text.trim, String.toList_ofList]
    exact Text.mem_trimChars hin hx
  constructor
  · rintro ⟨-, hlen, -, -, hchars⟩
    exact ⟨hlen, fun x hx => ⟨(hchars x hx).2.1, (hchars x hx).2.2.2⟩⟩
  · rintro ⟨hlen, hchars⟩
    refine ⟨?_, hlen, ?_, ?_, fun x hx => ⟨?_, (hchars x hx).1, ?_, (hchars x hx).2⟩⟩
    · rintro rfl
      exact hempty (by decide)
    · rintro rfl
      exact hdot (by decide)
    · rintro rfl
      exact hdots (by decide)
    · rintro rfl
      exact hmem '/' (by decide) hslash hx
    · rintro rfl
      exact hmem '\x00' (by decide) hnul hx

/-- The strings that come back have no quotes in them, so the names that were written had none. -/
theorem cleanStrings_of_statements (h : renderNftables ms c rc = .ok text)
    (hs : statements Nft.alphabet text.toList = some (intendedStatements ms c rc)) : CleanStrings ms c := by
  constructor
  · intro hany
    obtain ⟨m, hm, hf⟩ := List.any_eq_true.1 hany
    -- the port forward was rendered, so it has a statement
    obtain ⟨ts, hts, hname⟩ : ∃ ts, forwardStatement c.wanInterface m = some ts ∧
        .quoted c.wanInterface ∈ ts := by
      have hmode := (validateMapping_parts ((validateMappings_ok.1 (validateMappings_of_render h)).1 m hm)).2.2.2.2.2
      obtain ⟨p, t, hp, -, ht, -, hpr⟩ := portForward_shape hmode (isNftPortForward_iff.1 hf).2.2
      unfold forwardStatement
      rw [hp, ht]
      cases hproto : m.protocol with
      | all => exact absurd hproto hpr
      | tcp => exact ⟨_, rfl, by simp [dnatStatement]⟩
      | udp => exact ⟨_, rfl, by simp [dnatStatement]⟩
    have hmem : ts ∈ intendedStatements ms c rc := by
      have : ts ∈ (ms.filter isNftPortForward).filterMap (forwardStatement c.wanInterface) :=
        List.mem_filterMap.2 ⟨m, List.mem_filter.2 ⟨hm, hf⟩, hts⟩
      simp only [intendedStatements, List.mem_append]
      tauto
    exact quote_notMem hs hmem hname
  · intro hcidrs
    obtain ⟨cidr, hcidr⟩ := List.exists_mem_of_ne_nil _ hcidrs
    have hmem : masqueradeStatement c.netbirdInterface cidr ∈ intendedStatements ms c rc := by
      have : masqueradeStatement c.netbirdInterface cidr ∈
          c.targetCidrs.map (masqueradeStatement c.netbirdInterface) := List.mem_map_of_mem hcidr
      simp only [intendedStatements, List.mem_append]
      tauto
    exact quote_notMem hs hmem (by simp [masqueradeStatement])

/-- **The text says what was meant exactly when the names in it stand as written and have no quotes.** An accepted
config has a range, so that the second name is always in the text. -/
theorem names_stand_iff (hc : validateEdgeConfig c = .ok ()) (hname : Nft.isIdentifier rc.tableName = true)
    (h : renderNftables ms c rc = .ok text) : SaysIntended ms c rc text ↔
      (ms.any isNftPortForward = true → StandsAsWritten c.wanInterface) ∧ StandsAsWritten c.netbirdInterface ∧
        CleanStrings ms c := by
  obtain ⟨⟨hwan, hnetbird⟩, hcidrs, -⟩ := validateEdgeConfig_ok.1 hc
  rw [← linuxName_iff hwan, ← linuxName_iff hnetbird]
  constructor
  · intro hs
    exact ⟨hs.wan, hs.netbird hcidrs, cleanStrings_of_statements h hs.statements⟩
  · rintro ⟨hw, hn, hclean⟩
    exact ⟨statements_of_render hname hclean h, hw, fun _ => hn⟩

/-- A plain config and one port forward. -/
theorem names_stand_sample : ∃ text, renderNftables [samplePortForward] sampleConfig {} = .ok text ∧
    SaysIntended [samplePortForward] sampleConfig {} text := by
  have hv : validateMappings [samplePortForward] sampleConfig = .ok () := by decide
  obtain ⟨text, htext⟩ := renderNftables_ok {} hv
  exact ⟨text, htext, (names_stand_iff (by decide) (by decide) htext).2 (by decide)⟩

/-- The validator accepts a name with a quote in it. -/
def quotedConfig : EdgeConfig := { sampleConfig with netbirdInterface := "wt\"0" }

/-- The string of that name ends before the name does. -/
theorem names_stand_quoted : ¬ ∀ ms c text, validateEdgeConfig c = .ok () →
    renderNftables ms c {} = .ok text → SaysIntended ms c {} text := by
  intro hall
  have hv : validateMappings [sampleMapping] quotedConfig = .ok () := by decide
  obtain ⟨text, htext⟩ := renderNftables_ok {} hv
  have hs := hall [sampleMapping] quotedConfig text (by decide) htext
  have hclean := (cleanStrings_of_statements htext hs.statements).2 (by decide)
  exact hclean (by decide)

/-! ## Sentences -/

section Blocks

open Nft.Block

theorem fold_head {name : String} (hname : Nft.isIdentifier name = true) :
    (lineStatements (headLines name)).foldlM statement file = some (elements []) := by
  have hmap : Nft.isIdentifier "edge_to_target" = true := by decide
  rw [lineStatements_headLines]
  simp [statement, inFile, inTable, inMap, hname, hmap]

theorem fold_elements (ms : List Mapping) (read : List Token) :
    (ms.map elementStatement).foldlM statement (elements read) =
      some (elements (read ++ ms.flatMap elementStatement)) := by
  induction ms generalizing read with
  | nil => simp
  | cons m ms ih =>
    have hstep : statement (elements read) (elementStatement m) = some (elements (read ++ elementStatement m)) := rfl
    rw [List.map_cons, List.foldlM_cons, hstep, Option.bind_eq_bind, Option.bind_some, ih]
    simp

/-- The braces of `elements` hold something exactly when there is a mapping. -/
theorem isElementList_iff : Nft.isElementList (ms.flatMap elementStatement) = true ↔ ms ≠ [] := by
  have helement : ∀ m : Mapping, Nft.isElement m.edgePrivateIp.toText m.targetIp.toText = true := by
    intro m
    simp [Nft.isElement, readAddr_toText]
  induction ms with
  | nil => simp [Nft.isElementList]
  | cons m ms ih =>
    cases ms with
    | nil => simp [elementStatement, Nft.isElementList, helement]
    | cons m' ms =>
      have hrest := ih.2 (by simp)
      rw [List.flatMap_cons] at hrest ⊢
      simp only [elementStatement, List.cons_append, List.nil_append, List.flatMap_cons] at hrest ⊢
      rw [Nft.isElementList]
      · simp [helement, hrest]
      · simp

/-- Rules of a chain. -/
theorem fold_rules {ss : List (List Token)} (h : ∀ ts ∈ ss, (Nft.readRule ts).isSome = true) :
    ss.foldlM statement rules = some rules := by
  induction ss with
  | nil => rfl
  | cons ts ss ih =>
    rw [List.forall_mem_cons] at h
    have hend : ts ≠ [.sym '\x7d'] := by rintro rfl; cases h.1
    have hstep : statement rules ts = some rules := by
      rw [statement, inRules, if_pos h.1]
      exact hend
    rw [List.foldlM_cons, hstep]
    exact ih h.2

theorem readRule_forwardStatement {wan : String} {ts : List Token} (h : forwardStatement wan m = some ts) :
    (Nft.readRule ts).isSome = true := by
  unfold forwardStatement at h
  split at h
  · rename_i p t _ _ _
    cases h
    have hl : Nft.readL4 "tcp" = some .tcp := rfl
    have hread : Nft.readRule ((forwardLine wan "tcp" m p t).map Piece.token) = _ := readRule_forwardLine hl m p t
    exact Option.isSome_iff_exists.2 ⟨_, hread⟩
  · rename_i p t _ _ _
    cases h
    have hl : Nft.readL4 "udp" = some .udp := rfl
    have hread : Nft.readRule ((forwardLine wan "udp" m p t).map Piece.token) = _ := readRule_forwardLine hl m p t
    exact Option.isSome_iff_exists.2 ⟨_, hread⟩
  · cases h

theorem readRule_masqueradeStatement (netbird : String) (cidr : Ipv4Net) :
    (Nft.readRule (masqueradeStatement netbird cidr)).isSome = true :=
  Option.isSome_iff_exists.2 ⟨_, readRule_masqueradeLine netbird cidr⟩

/-- The statements after the elements, once the braces are closed. -/
theorem fold_later :
    (preroutingStatements ++ lineStatements (laterLines ms c)).foldlM statement map = some file := by
  have hpre : preroutingStatements.foldlM statement map = some rules := by decide
  have hpost : postroutingStatements.foldlM statement rules = some rules := by decide
  have htail : [[Token.sym '\x7d'], [.sym '\x7d']].foldlM statement rules = some file := by decide
  have hforward : ((ms.filter isNftPortForward).filterMap (forwardStatement c.wanInterface)).foldlM
      statement rules = some rules := by
    refine fold_rules fun ts hts => ?_
    obtain ⟨m, -, hm⟩ := List.mem_filterMap.1 hts
    exact readRule_forwardStatement hm
  have hmasquerade : (c.targetCidrs.map (masqueradeStatement c.netbirdInterface)).foldlM statement rules =
      some rules := by
    refine fold_rules fun ts hts => ?_
    obtain ⟨cidr, -, rfl⟩ := List.mem_map.1 hts
    exact readRule_masqueradeStatement c.netbirdInterface cidr
  rw [List.foldlM_append, hpre, Option.bind_eq_bind, Option.bind_some, lineStatements_laterLines,
    List.foldlM_append, hforward, Option.bind_eq_bind, Option.bind_some, List.foldlM_append, hpost,
    Option.bind_eq_bind, Option.bind_some, List.foldlM_append, hmasquerade, Option.bind_eq_bind,
    Option.bind_some, htail]

end Blocks

/-- With nothing to map, the empty braces are read before any name is. -/
theorem oneToOne_of_sentence (hname : Nft.isIdentifier rc.tableName = true)
    (h : renderNftables ms c rc = .ok text) (hs : Nft.Sentence text) : ms.any isNftOneToOne = true := by
  by_contra hany
  have hnone : ms.filter isNftOneToOne = [] := by
    simpa [List.filter_eq_nil_iff] using hany
  obtain ⟨ss, hss, hfold⟩ := hs
  have htext : text.toList = Lex.text (headLines rc.tableName ++ [[⟨8, .sym '\x7d'⟩]]) ++
      Lex.text (preroutingLines.tail ++ laterLines ms c) := by
    rw [toList_of_render h, hnone, ← text_append, List.append_assoc]
    rfl
  have hapart : ∀ ps ∈ headLines rc.tableName ++ [[⟨8, .sym '\x7d'⟩]], Apart Nft.alphabet ps := by
    intro ps hps
    rcases List.mem_append.1 hps with hps | hps
    · exact apart_headLines hname ps hps
    · exact apart_preroutingLines ps (List.mem_of_mem_head? (by simpa [preroutingLines, eq_comm] using hps))
  rw [htext, statements_text_append semicolon_apart hapart] at hss
  obtain ⟨rest, -, rfl⟩ := Option.map_eq_some_iff.1 hss
  have hclose : Nft.Block.statement (.elements []) [.sym '\x7d'] = none := by decide
  have hbrace : lineStatements [[⟨8, .sym '\x7d'⟩]] = [[.sym '\x7d']] := rfl
  rw [lineStatements_append, hbrace, List.append_assoc, List.foldlM_append, fold_head hname,
    Option.bind_eq_bind, Option.bind_some, List.singleton_append, List.foldlM_cons, hclose] at hfold
  cases hfold

/-- **The text is a sentence exactly when a one-to-one mapping is forwarded.** Without one it never is,
whatever the names are; with one it is, unless a quote in an interface name ends its string early. -/
theorem sentence_iff (hname : Nft.isIdentifier rc.tableName = true) (h : renderNftables ms c rc = .ok text) :
    (Nft.Sentence text → ms.any isNftOneToOne = true) ∧
      (CleanStrings ms c → (Nft.Sentence text ↔ ms.any isNftOneToOne = true)) := by
  have hneeds : Nft.Sentence text → ms.any isNftOneToOne = true := oneToOne_of_sentence hname h
  refine ⟨hneeds, fun hclean => ⟨hneeds, fun hany => ?_⟩⟩
  have hsome : ms.filter isNftOneToOne ≠ [] := by
    obtain ⟨m, hm, hf⟩ := List.any_eq_true.1 hany
    exact List.ne_nil_of_mem (List.mem_filter.2 ⟨hm, hf⟩)
  refine ⟨_, statements_of_render hname hclean h, ?_⟩
  have hclose : Nft.Block.statement (.elements ((ms.filter isNftOneToOne).flatMap elementStatement))
      [.sym '\x7d'] = some .map := by
    rw [Nft.Block.statement, Nft.Block.inElements, if_pos (isElementList_iff.2 hsome)]
  have hlater : (preroutingStatements ++ lineStatements (laterLines ms c)).foldlM Nft.Block.statement Nft.Block.map =
      some Nft.Block.file := fold_later
  have hsplit : intendedStatements ms c rc = lineStatements (headLines rc.tableName) ++
      ((ms.filter isNftOneToOne).map elementStatement ++ ([.sym '\x7d'] ::
        (preroutingStatements ++ lineStatements (laterLines ms c)))) := by
    rw [lineStatements_headLines, lineStatements_laterLines]
    simp only [intendedStatements, preroutingStatements, postroutingStatements, List.append_assoc,
      List.cons_append, List.nil_append]
  rw [hsplit, List.foldlM_append, fold_head hname, Option.bind_eq_bind, Option.bind_some, List.foldlM_append,
    fold_elements, Option.bind_eq_bind, Option.bind_some, List.nil_append, List.foldlM_cons, hclose]
  exact hlater

/-- A list of one mapping. -/
theorem sentence_sample : ∃ text, renderNftables [sampleMapping] sampleConfig {} = .ok text ∧
    Nft.Sentence text := by
  have hv : validateMappings [sampleMapping] sampleConfig = .ok () := by decide
  obtain ⟨text, htext⟩ := renderNftables_ok {} hv
  exact ⟨text, htext, ((sentence_iff (by decide) htext).2 (by decide)).2 (by decide)⟩

/-- No mapping at all is a list the renderer accepts. -/
theorem sentence_empty : ¬ ∀ ms c text, renderNftables ms c {} = .ok text → Nft.Sentence text := by
  intro hall
  have hv : validateMappings [] sampleConfig = .ok () := by decide
  obtain ⟨text, htext⟩ := renderNftables_ok {} hv
  have hany := oneToOne_of_sentence (by decide) htext (hall [] sampleConfig text htext)
  cases hany

end EdgeRoute
