import LspWire.Proofs.Typing
import LspWire.Proofs.Writing
import LspWire.Protocol.Tokens
import LspWire.Value.Equality
import Mathlib

/-!
# Packing constructed tokens

Every list of tokens that a constructor lets through is packed into base64 text, whose length depends
on the number of tokens alone. The text is unpacked into equal tokens, and so different tokens have
different texts.
-/

namespace LspWire

namespace Base64

/-- Base64 text: whole groups of four characters, all of them from the alphabet but for at most two
signs of padding at the end. -/
def IsText (cs : List Char) : Prop :=
  4 ∣ cs.length ∧ ∃ data pads, cs = data ++ List.replicate pads '=' ∧ pads ≤ 2 ∧
    ∀ c ∈ data, (sextet? c).isSome = true

theorem isSome_sextet?_alphabet {s : Nat} (h : s < 64) :
    (sextet? (alphabet s)).isSome = true := by
  rw [sextet?_alphabet h]
  rfl

/-- Three octets take four characters, and fewer than three octets at the end take four as well. -/
theorem length_encode (bytes : List Nat) : (encode bytes).length = 4 * (bytes.length ⌈/⌉ 3) := by
  rw [Nat.ceilDiv_eq_add_pred_div]
  induction bytes using encode.induct with
  | case1 x y z rest ih =>
    simp only [encode, List.length_cons, ih]
    omega
  | case2 | case3 | case4 => simp [encode]

theorem exists_padding_encode {bytes : List Nat} (h : ∀ x ∈ bytes, x < 256) :
    ∃ data pads, encode bytes = data ++ List.replicate pads '=' ∧ pads ≤ 2 ∧
      ∀ c ∈ data, (sextet? c).isSome = true := by
  induction bytes using encode.induct with
  | case1 x y z rest ih =>
    simp only [List.forall_mem_cons] at h
    obtain ⟨data, pads, hdata, hpads, hall⟩ := ih h.2.2.2
    refine ⟨alphabet (x / 4) :: alphabet (16 * (x % 4) + y / 16) ::
      alphabet (4 * (y % 16) + z / 64) :: alphabet (z % 64) :: data, pads, ?_, hpads, ?_⟩
    · rw [encode, hdata]
      rfl
    · simp only [List.forall_mem_cons]
      exact ⟨isSome_sextet?_alphabet (by omega), isSome_sextet?_alphabet (by omega),
        isSome_sextet?_alphabet (by omega), isSome_sextet?_alphabet (by omega), hall⟩
  | case2 x y =>
    simp only [List.forall_mem_cons] at h
    refine ⟨[alphabet (x / 4), alphabet (16 * (x % 4) + y / 16), alphabet (4 * (y % 16))], 1, rfl,
      by decide, ?_⟩
    simp only [List.forall_mem_cons]
    exact ⟨isSome_sextet?_alphabet (by omega), isSome_sextet?_alphabet (by omega),
      isSome_sextet?_alphabet (by omega), List.forall_mem_nil _⟩
  | case3 x =>
    simp only [List.forall_mem_cons] at h
    refine ⟨[alphabet (x / 4), alphabet (16 * (x % 4))], 2, rfl, le_rfl, ?_⟩
    simp only [List.forall_mem_cons]
    exact ⟨isSome_sextet?_alphabet (by omega), isSome_sextet?_alphabet (by omega),
      List.forall_mem_nil _⟩
  | case4 => exact ⟨[], 0, rfl, by decide, List.forall_mem_nil _⟩

theorem isText_encode {bytes : List Nat} (h : ∀ x ∈ bytes, x < 256) : IsText (encode bytes) :=
  ⟨⟨_, length_encode bytes⟩, exists_padding_encode h⟩

end Base64

namespace Token

theorem isText_pack (tokens : List Token) : Base64.IsText (pack tokens).toList := by
  rw [pack, String.toList_ofList]
  exact Base64.isText_encode (flatMap_octets_lt tokens)

theorem length_pack (tokens : List Token) :
    (pack tokens).length = 4 * ((8 * tokens.length) ⌈/⌉ 3) := by
  have hoctets : (tokens.flatMap octets).length = 8 * tokens.length := by
    induction tokens with
    | nil => rfl
    | cons t ts ih =>
      rw [List.flatMap_cons, List.length_append, length_octets, ih, List.length_cons]
      omega
  rw [pack, String.length_ofList, Base64.length_encode, hoctets]

end Token

namespace Value

variable {R E : Type}

theorem cases_toInt? {v : Value R E} {n : Int} (h : v.toInt? = some n) :
    v = .int n ∨ (∃ b, v = .bool b ∧ Scalar.numberOfBool b = n) ∨ ∃ e, v = .flags e n := by
  unfold toInt? at h
  split at h <;> cases h
  · exact .inl rfl
  · exact .inr (.inl ⟨_, rfl, rfl⟩)
  · exact .inr (.inr ⟨_, rfl⟩)

variable [DecidableEq R] [DecidableEq E]

/-- Values that count as the same integer are equal. -/
theorem equal_of_toInt? {v w : Value R E} {n : Int} (hv : v.toInt? = some n)
    (hw : w.toInt? = some n) : v.equal w = true := by
  obtain rfl | ⟨a, rfl, ha⟩ | ⟨e, rfl⟩ := cases_toInt? hv <;>
    obtain rfl | ⟨b, rfl, hb⟩ | ⟨e', rfl⟩ := cases_toInt? hw
  · exact beq_self_eq_true n
  · exact beq_iff_eq.2 hb
  · exact beq_self_eq_true n
  · exact beq_iff_eq.2 ha
  · rw [← hb] at ha
    cases a <;> cases b <;> first | rfl | cases ha
  · exact beq_iff_eq.2 ha
  · exact beq_self_eq_true n
  · exact beq_iff_eq.2 hb
  · exact beq_self_eq_true n

theorem equalItems_of_forall₂ {vs ws : List (Value R E)}
    (h : List.Forall₂ (fun v w => v.equal w = true) vs ws) : equalItems vs ws = true := by
  induction h with
  | nil => rfl
  | cons hvw _ ih => exact Bool.and_eq_true_iff.2 ⟨hvw, ih⟩

end Value

namespace Protocol

/-! ## Constructed tokens -/

/-- Whether a value is the record of a token, with numbers of any kind. -/
inductive StandsFor : Datum → Token → Prop where
  | record {a b c : Datum} {t : Token} (ha : a.toInt? = some (t.character : Int))
    (hb : b.toInt? = some (t.length : Int)) (hc : c.toInt? = some (t.scope : Int)) :
    StandsFor (.record .semanticHighlightingToken [a, b, c]) t

theorem standsFor_tokenValue (t : Token) :
    StandsFor (Schema.tokenValue .semanticHighlightingToken t) t :=
  .record rfl rfl rfl

theorem StandsFor.toToken? {v : Datum} {t : Token} (h : StandsFor v t) : v.toToken? = some t := by
  cases h with
  | record ha hb hc =>
    rw [Value.toToken?, ha, hb, hc]
    rfl

theorem StandsFor.equal {v w : Datum} {t : Token} (hv : StandsFor v t) (hw : StandsFor w t) :
    v.equal w = true := by
  cases hv with
  | record ha hb hc =>
    cases hw with
    | record ha' hb' hc' =>
      change Value.equalItems _ _ = true
      exact Value.equalItems_of_forall₂ (.cons (Value.equal_of_toInt? ha ha')
        (.cons (Value.equal_of_toInt? hb hb') (.cons (Value.equal_of_toInt? hc hc') .nil)))

theorem run_unsigned_iff {enabled : Bool} {bits : Nat} {record field : String} {v : Datum} :
    (Check.unsigned bits).run schema enabled record field v = .ok () ↔
      ∃ m : Nat, v.toInt? = some (m : Int) ∧ m < 2 ^ bits := by
  cases hn : v.toInt? with
  | none =>
    refine iff_of_false (fun h => ?_) nofun
    rw [Check.run, hn] at h
    cases h
  | some n =>
    have hint : (Check.unsigned bits).run schema enabled record field v =
        (Check.unsigned bits).run schema enabled record field (.int n) := by
      rw [Check.run, hn]
      rfl
    rw [hint, Schema.run_unsigned_eq_ok_iff]
    simp only [Option.some.injEq]

theorem checkField_unsigned_iff {enabled : Bool} {bits : Nat} {record field : String}
    {ty : DataType} {v : Datum} :
    schema.checkField enabled record (.required field ty [.unsigned bits]) v = .ok () ↔
      ∃ m : Nat, v.toInt? = some (m : Int) ∧ m < 2 ^ bits := by
  rw [Schema.checkField_eq_ok_iff, ← @run_unsigned_iff enabled]
  exact ⟨fun h => h.2 _ List.mem_cons_self, fun h => ⟨nofun, List.forall_mem_singleton.2 h⟩⟩

theorem checkFields_token_iff {enabled : Bool} {a b c : Datum} :
    schema.checkFields enabled .semanticHighlightingToken [a, b, c] = .ok () ↔
      ∃ t : Token, t.Fits ∧ StandsFor (.record .semanticHighlightingToken [a, b, c]) t := by
  rw [Schema.checkFields_eq_ok_iff, fields_semanticHighlightingToken]
  simp only [List.zip_cons_cons, List.zip_nil_right, List.forall_mem_cons, checkField_unsigned_iff]
  constructor
  · rintro ⟨⟨character, ha, hcharacter⟩, ⟨length, hb, hlength⟩, ⟨scope, hc, hscope⟩, -⟩
    exact ⟨⟨character, length, scope⟩, ⟨hcharacter, hlength, hscope⟩, .record ha hb hc⟩
  · rintro ⟨t, ⟨hcharacter, hlength, hscope⟩, ht⟩
    cases ht with
    | record ha hb hc =>
      exact ⟨⟨_, ha, hcharacter⟩, ⟨_, hb, hlength⟩, ⟨_, hc, hscope⟩, List.forall_mem_nil _⟩

/-- The arguments of a constructed token are its three numbers. -/
theorem arrange_token {row values : List Datum}
    (h : schema.arrange .semanticHighlightingToken (["character", "length", "scope"].zip row) =
      .ok values) (hrow : row.length ≤ 3) :
    ∃ a b c, row = [a, b, c] ∧ values = [a, b, c] := by
  match row, hrow with
  | [], _ => cases h
  | [a], _ => cases h
  | [a, b], _ => cases h
  | [a, b, c], _ =>
    cases h
    exact ⟨a, b, c, rfl, rfl⟩

theorem constructOrdered_token_iff {enabled : Bool} {row : List Datum} {v : Datum} :
    constructOrdered enabled .semanticHighlightingToken row = .ok v ↔
      v = .record .semanticHighlightingToken row ∧ ∃ t : Token, t.Fits ∧ StandsFor v t := by
  have hconstruct : constructOrdered enabled .semanticHighlightingToken row =
      if row.length ≤ 3 then
        (schema.construct enabled .semanticHighlightingToken
          (["character", "length", "scope"].zip row)).mapError .refused
      else .error (.refused .wrongArguments) := rfl
  rw [hconstruct]
  constructor
  · intro h
    split at h
    · rename_i hrow
      rw [mapError_eq_ok_iff, Schema.construct_eq_ok_iff] at h
      obtain ⟨-, values, hvalues, hchecks, rfl⟩ := h
      obtain ⟨a, b, c, rfl, rfl⟩ := arrange_token hvalues hrow
      exact ⟨rfl, checkFields_token_iff.1 hchecks⟩
    · cases h
  · rintro ⟨rfl, t, ht, hv⟩
    have hv' := hv
    cases hv' with
    | @record a b c _ ha hb hc =>
      have hrow : [a, b, c].length ≤ 3 := Nat.le_refl 3
      rw [if_pos hrow, mapError_eq_ok_iff, Schema.construct_eq_ok_iff]
      exact ⟨rfl, _, rfl, checkFields_token_iff.2 ⟨t, ht, hv⟩, rfl⟩

/-- Constructed tokens are the records of tokens whose numbers fit. -/
theorem exists_tokens_of_constructed {enabled : Bool} {rows : List (List Datum)}
    {values : List Datum}
    (h : rows.mapM (constructOrdered enabled .semanticHighlightingToken) = .ok values) :
    values = rows.map (.record .semanticHighlightingToken) ∧
      ∃ tokens : List Token, (∀ t ∈ tokens, t.Fits) ∧ List.Forall₂ StandsFor values tokens := by
  rw [mapM_eq_ok_iff] at h
  induction h with
  | nil => exact ⟨rfl, [], List.forall_mem_nil _, .nil⟩
  | cons hrow _ ih =>
    obtain ⟨rfl, t, ht, hv⟩ := constructOrdered_token_iff.1 hrow
    obtain ⟨rfl, ts, hts, hvs⟩ := ih
    exact ⟨rfl, t :: ts, List.forall_mem_cons.2 ⟨ht, hts⟩, .cons hv hvs⟩

theorem packed?_of_standsFor {values : List Datum} {tokens : List Token}
    (h : List.Forall₂ StandsFor values tokens) :
    (Value.list values).packed? = some (Token.pack tokens) := by
  have htokens : values.mapM Value.toToken? = some tokens := by
    induction h with
    | nil => rfl
    | cons hv _ ih =>
      rw [List.mapM_cons, hv.toToken?, ih]
      rfl
  rw [Value.packed?, htokens]
  rfl

theorem encodeTokens_eq {enabled : Bool} {rows : List (List Datum)} {values : List Datum}
    {tokens : List Token}
    (h : rows.mapM (constructOrdered enabled .semanticHighlightingToken) = .ok values)
    (hstands : List.Forall₂ StandsFor values tokens) :
    encodeTokens enabled (some rows) = .ok (.str (Token.pack tokens)) := by
  rw [encodeTokens, h]
  dsimp only [bind, Except.bind]
  rw [packed?_of_standsFor hstands]
  rfl

theorem forall₂_standsFor_tokenValue (tokens : List Token) :
    List.Forall₂ StandsFor (tokens.map (Schema.tokenValue .semanticHighlightingToken)) tokens :=
  List.forall₂_map_left_iff.2 (List.forall₂_same.2 fun t _ => standsFor_tokenValue t)

theorem equal_of_standsFor {values values' : List Datum} {tokens : List Token}
    (h : List.Forall₂ StandsFor values tokens) (h' : List.Forall₂ StandsFor values' tokens) :
    (Value.list values).equal (.list values') = true := by
  change Value.equalItems values values' = true
  refine Value.equalItems_of_forall₂ ?_
  induction h generalizing values' with
  | nil =>
    cases h'
    exact .nil
  | cons hv _ ih =>
    cases h' with
    | cons hv' hvs' => exact .cons (hv.equal hv') (ih hvs')

/-- Whether the numbers of a row are plain integers. -/
def IsPlain (row : List Datum) : Prop := ∀ v ∈ row, ∃ n : Int, v = .int n

theorem StandsFor.eq_tokenValue {row : List Datum} {t : Token}
    (h : StandsFor (.record .semanticHighlightingToken row) t) (hrow : IsPlain row) :
    Value.record .semanticHighlightingToken row =
      Schema.tokenValue .semanticHighlightingToken t := by
  cases h with
  | record ha hb hc =>
    rw [IsPlain] at hrow
    simp only [List.forall_mem_cons] at hrow
    obtain ⟨⟨a, rfl⟩, ⟨b, rfl⟩, ⟨c, rfl⟩, -⟩ := hrow
    cases ha
    cases hb
    cases hc
    rfl

theorem map_record_eq {rows : List (List Datum)} {tokens : List Token}
    (h : List.Forall₂ StandsFor (rows.map (.record .semanticHighlightingToken)) tokens)
    (hrows : ∀ row ∈ rows, IsPlain row) :
    rows.map (Value.record .semanticHighlightingToken) =
      tokens.map (Schema.tokenValue .semanticHighlightingToken) := by
  rw [List.forall₂_map_left_iff] at h
  induction h with
  | nil => rfl
  | cons hrow _ ih =>
    rw [List.forall_mem_cons] at hrows
    rw [List.map_cons, List.map_cons, hrow.eq_tokenValue hrows.1, ih hrows.2]

theorem decodeTokens_pack {tokens : List Token} (h : ∀ t ∈ tokens, t.Fits) :
    decodeTokens (.str (Token.pack tokens)) =
      .ok (.list (tokens.map (Schema.tokenValue .semanticHighlightingToken))) := by
  rw [decodeTokens, Layer.ofJson, Schema.readTokens, Token.unpack_pack h]

/-- Constructed tokens are packed into base64 text of four characters for three octets, eight octets
to a token. The text is unpacked into equal tokens, and into the same ones if their numbers are plain
integers; so no two lists of different tokens have the same text. -/
theorem encodeTokens_lossless {enabled : Bool} {rows : List (List Datum)} {values : List Datum}
    (h : rows.mapM (constructOrdered enabled .semanticHighlightingToken) = .ok values) :
    ∃ text, encodeTokens enabled (some rows) = .ok (.str text) ∧ Base64.IsText text.toList ∧
      text.length = 4 * ((8 * values.length) ⌈/⌉ 3) ∧
      (∃ back, decodeTokens (.str text) = .ok (.list back) ∧
        (Value.list back).equal (.list values) = true ∧
        ((∀ row ∈ rows, IsPlain row) → back = values)) ∧
      ∀ (enabled' : Bool) (rows' : List (List Datum)) (values' : List Datum),
        rows'.mapM (constructOrdered enabled' .semanticHighlightingToken) = .ok values' →
        encodeTokens enabled' (some rows') = .ok (.str text) →
        (Value.list values').equal (.list values) = true ∧
          ((∀ row ∈ rows, IsPlain row) → (∀ row ∈ rows', IsPlain row) → values' = values) := by
  obtain ⟨rfl, tokens, htokens, hstands⟩ := exists_tokens_of_constructed h
  refine ⟨Token.pack tokens, encodeTokens_eq h hstands, Token.isText_pack tokens, ?_,
    ⟨_, decodeTokens_pack htokens, ?_, fun hrows => (map_record_eq hstands hrows).symm⟩, ?_⟩
  · rw [Token.length_pack, hstands.length_eq]
  · exact equal_of_standsFor (forall₂_standsFor_tokenValue tokens) hstands
  · intro enabled' rows' values' h' htext
    obtain ⟨rfl, tokens', htokens', hstands'⟩ := exists_tokens_of_constructed h'
    -- Both lists are read back from the one text.
    have hpack : Token.pack tokens' = Token.pack tokens := by
      rw [encodeTokens_eq h' hstands'] at htext
      simpa using htext
    obtain rfl : tokens' = tokens := by
      have hunpack := Token.unpack_pack htokens'
      rw [hpack, Token.unpack_pack htokens] at hunpack
      exact (Except.ok.inj hunpack).symm
    refine ⟨equal_of_standsFor hstands' hstands, fun hrows hrows' => ?_⟩
    rw [map_record_eq hstands hrows, map_record_eq hstands' hrows']

/-- Two tokens make sixteen octets, the last of which stands in a group of its own. -/
theorem encodeTokens_lossless_pair :
    ∃ values, [[.int 1, .int 2, .int 3], [.int 0x112222, .int 0xff0, .int 0x202]].mapM
        (constructOrdered false .semanticHighlightingToken) = .ok values ∧
      encodeTokens false
          (some [[.int 1, .int 2, .int 3], [.int 0x112222, .int 0xff0, .int 0x202]]) =
        .ok (.str "AAAAAQACAAMAESIiD/ACAg==") ∧
      Base64.IsText "AAAAAQACAAMAESIiD/ACAg==".toList ∧
      "AAAAAQACAAMAESIiD/ACAg==".length = 4 * ((8 * values.length) ⌈/⌉ 3) ∧
      decodeTokens (.str "AAAAAQACAAMAESIiD/ACAg==") = .ok (.list values) := by
  have hplain (character length scope : Int) :
      IsPlain [.int character, .int length, .int scope] := by
    simp [IsPlain]
  have hvalues : [[.int 1, .int 2, .int 3], [.int 0x112222, .int 0xff0, .int 0x202]].mapM
      (constructOrdered false .semanticHighlightingToken) =
        .ok [.record .semanticHighlightingToken [.int 1, .int 2, .int 3],
          .record .semanticHighlightingToken [.int 0x112222, .int 0xff0, .int 0x202]] := rfl
  obtain ⟨text, htext, hbase64, hlength, ⟨back, hback, -, hsame⟩, -⟩ :=
    encodeTokens_lossless hvalues
  obtain rfl : text = "AAAAAQACAAMAESIiD/ACAg==" := by
    have hencode : encodeTokens false
        (some [[.int 1, .int 2, .int 3], [.int 0x112222, .int 0xff0, .int 0x202]]) =
          .ok (.str "AAAAAQACAAMAESIiD/ACAg==") := rfl
    rw [hencode] at htext
    simpa using htext.symm
  rw [hsame (List.forall_mem_cons.2 ⟨hplain _ _ _, List.forall_mem_singleton.2 (hplain _ _ _)⟩)]
    at hback
  exact ⟨_, rfl, htext, hbase64, hlength, hback⟩

end Protocol

end LspWire
