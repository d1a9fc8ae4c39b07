/-
  The round trip of an uplink MAC PDU: what `nr_ue_get_sdu` writes, `nr_process_mac_pdu` reads.

  The UE picks subheaders, BSR formats and padding from pointer differences; the gNB finds every boundary
  again from its own table of LCIDs.  Both meet in `UlRow`: wherever a memory holds the bytes, the gNB goes
  through exactly these.  One row for each thing that is written (`SduHeader.row`, `PhrCe.row`, `UeBsr.row`);
  what the gNB REFUSES is said on its side (`GnbEnv.Accepts`).
-/
import NrStack.Mac.UlMux

namespace NrStack.Mac

open List Probing

/-! ## Rows of sub-PDUs -/

/-- What the gNB takes from a PDU: RLC PDUs with their LCIDs, PHRs as PH and PCMAX, BSRs as LCGs with
their indices. -/
structure UlDecoded where
  sdus : List (Nat × List UInt8) := []
  phrs : List (Nat × Nat) := []
  bsrs : List (List (Nat × Nat)) := []
  deriving DecidableEq

instance : Append UlDecoded where
  append a b := ⟨a.sdus ++ b.sdus, a.phrs ++ b.phrs, a.bsrs ++ b.bsrs⟩

lemma UlDecoded.append_def (a b : UlDecoded) :
    a ++ b = ⟨a.sdus ++ b.sdus, a.phrs ++ b.phrs, a.bsrs ++ b.bsrs⟩ := rfl

/-- What the gNB has decoded. -/
def UlRx.decoded (mem : Nat → UInt8) (st : UlRx) : UlDecoded :=
  ⟨st.rlc.map fun ind => (ind.lcid, slice mem ind.start ind.len), st.phrs, st.bsrs⟩

/-- The parser goes through the bytes, and decodes `d`. -/
def UlRow (env : GnbEnv) (bs : List UInt8) (d : UlDecoded) : Prop :=
  TakesIn (processSubPdu env) UlRx.decoded bs (· ++ d)

namespace UlRow

variable {env : GnbEnv} {bs bs' : List UInt8} {d d' : UlDecoded}

lemma nil : UlRow env [] {} := by
  have hid : (fun a : UlDecoded => a ++ ({} : UlDecoded)) = id := by
    funext a
    simp [UlDecoded.append_def]
  rw [UlRow, hid]
  exact TakesIn.nil

lemma append (h : UlRow env bs d) (h' : UlRow env bs' d') : UlRow env (bs ++ bs') (d ++ d') := by
  have hcomp : (fun a : UlDecoded => a ++ (d ++ d')) = (· ++ d') ∘ (· ++ d) := by
    funext a
    simp [UlDecoded.append_def]
  rw [UlRow, hcomp]
  exact TakesIn.append h h'

lemma block (h : UlSubheader) (hne : bs ≠ []) (hsize : h.size = bs.length)
    (hheader : ∀ mem pos, HasBytes mem pos bs → ulSubheader mem pos = h)
    (hstep : ∀ mem pos st, HasBytes mem pos bs → ∃ st',
      (processLcid env mem pos h st).val = (.go h.size, st') ∧
        st'.decoded mem = st.decoded mem ++ d) : UlRow env bs d := by
  refine TakesIn.block hne fun mem pos rem st hmem hrem => ?_
  obtain ⟨st', hgo, hdecoded⟩ := hstep mem pos { st with met := st.met ++ [(pos, h)] } hmem
  refine ⟨st', ?_, hdecoded⟩
  have hdecode : (decodeUlMacSubPduHeader mem pos).val = h := hheader mem pos hmem
  rw [processSubPdu, val_bind, hdecode, processDecoded, if_neg (by omega), hgo, hsize]

end UlRow

/-! ## Subheaders read back -/

section Subheaders

variable {mem : Nat → UInt8} {pos : Nat} {rest : List UInt8}

lemma ulSubheader_of_fixed {lcid : UlLcid} {n : Nat} (hcode : lcid.code < 64)
    (hlcid : UlLcid.ofCode lcid.code = lcid) (hn : lcid.fixedLength = some n)
    (hmem : HasBytes mem pos (subheaderFixed lcid.code :: rest)) : ulSubheader mem pos = ⟨lcid, n, 1⟩ := by
  have hbyte : (mem pos).toNat = lcid.code := by
    rw [(hasBytes_cons.mp hmem).1, subheaderFixed_byte hcode]
  rw [ulSubheader, decodeUlMacSubPduHeader, val_bind, val_read, hbyte, decodeUlLength,
    Nat.mod_eq_of_lt hcode, hlcid]
  rw [hn]
  rfl

lemma ulSubheader_of_short {lcid l : Nat} (hlcid : lcid < 64) (hl : l < 256)
    (hnone : (UlLcid.ofCode lcid).fixedLength = none)
    (hmem : HasBytes mem pos (subheaderShort lcid l ++ rest)) :
    ulSubheader mem pos = ⟨UlLcid.ofCode lcid, l, 2⟩ := by
  obtain ⟨hbyte, hlen, -⟩ := subheaderShort_bytes hlcid hl hmem
  rw [ulSubheader, decodeUlMacSubPduHeader, val_bind, val_read, hbyte, decodeUlLength,
    Nat.mod_eq_of_lt hlcid]
  rw [hnone]
  rw [if_neg (by omega), val_bind, val_read, hlen, val_pure]

lemma ulSubheader_of_long {lcid l : Nat} (hlcid : lcid < 64) (hl : l < 2 ^ 16)
    (hnone : (UlLcid.ofCode lcid).fixedLength = none)
    (hmem : HasBytes mem pos (subheaderLong lcid l ++ rest)) :
    ulSubheader mem pos = ⟨UlLcid.ofCode lcid, l, 3⟩ := by
  obtain ⟨hbyte, hlen, -⟩ := subheaderLong_bytes hlcid hl hmem
  rw [ulSubheader, decodeUlMacSubPduHeader, val_bind, val_read, hbyte, decodeUlLength,
    show (64 + lcid) % 64 = lcid by omega]
  rw [hnone]
  rw [if_pos (by omega), val_bind, val_bind, val_read, val_read, hlen, val_pure]

end Subheaders

/-! ## RLC PDUs -/

/-- The gNB has a case for the channel: SRB1 and SRB2, when the UE has a cell group, and the DTCHs.
There is none for SRB3. -/
def GnbEnv.HasChannel (env : GnbEnv) (lcid : Nat) : Prop :=
  lcid ≠ 3 ∧ (lcid ≤ 2 → env.cellGroup = true)

variable {env : GnbEnv}

variable {lcid room : Nat} {mem lcgBsr : Nat → UInt8} {bsr : UeBsr}

lemma ofCode_channel (hvalid : 0 < lcid ∧ lcid ≤ 32) (hsrb3 : lcid ≠ 3) :
    UlLcid.ofCode lcid = .srb1 ∧ lcid = 1 ∨ UlLcid.ofCode lcid = .srb2 ∧ lcid = 2 ∨
      UlLcid.ofCode lcid = .dtch lcid ∧ 4 ≤ lcid := by
  by_cases h1 : lcid = 1
  · exact .inl ⟨by rw [h1]; rfl, h1⟩
  by_cases h2 : lcid = 2
  · exact .inr (.inl ⟨by rw [h2]; rfl, h2⟩)
  refine .inr (.inr ⟨?_, by omega⟩)
  rw [UlLcid.ofCode, if_neg (by omega), if_neg h1, if_neg h2, if_pos (by omega)]

lemma processLcid_sdu (hvalid : 0 < lcid ∧ lcid ≤ 32) (hhas : env.HasChannel lcid) {pos n k : Nat}
    {pdu : List UInt8} (hn : n = pdu.length) (hpdu : HasBytes mem (pos + k) pdu) (st : UlRx) :
    ∃ st', (processLcid env mem pos ⟨UlLcid.ofCode lcid, n, k⟩ st).val = (.go (k + n), st') ∧
      st'.decoded mem = st.decoded mem ++ { sdus := [(lcid, pdu)] } := by
  have hdeliver : ∀ (l : UlLcid) (left : Int),
      { st.deliver lcid pos ⟨l, n, k⟩ with estimatedUlBuffer := left }.decoded mem =
        st.decoded mem ++ { sdus := [(lcid, pdu)] } := by
    intro l left
    rw [UlRx.deliver, UlRx.decoded, map_append, map_singleton, hn, hpdu]
    simp [UlDecoded.append_def, UlRx.decoded]
  rcases ofCode_channel hvalid hhas.1 with ⟨hcode, rfl⟩ | ⟨hcode, rfl⟩ | ⟨hcode, -⟩
  · rw [hcode, processLcid, hhas.2 (by omega)]
    exact ⟨_, rfl, hdeliver .srb1 st.estimatedUlBuffer⟩
  · rw [hcode, processLcid, hhas.2 (by omega)]
    exact ⟨_, rfl, hdeliver .srb2 st.estimatedUlBuffer⟩
  · rw [hcode, processLcid]
    exact ⟨_, rfl, hdeliver (.dtch lcid) _⟩

theorem SduHeader.row {pdu header : List UInt8} (h : SduHeader lcid pdu header)
    (hvalid : 0 < lcid ∧ lcid ≤ 32) (hhas : env.HasChannel lcid) :
    UlRow env (header ++ pdu) { sdus := [(lcid, pdu)] } := by
  have hnone : (UlLcid.ofCode lcid).fixedLength = none := by
    rcases ofCode_channel hvalid hhas.1 with ⟨hcode, -⟩ | ⟨hcode, -⟩ | ⟨hcode, -⟩ <;>
      rw [hcode, UlLcid.fixedLength]
  cases h with
  | short hl =>
    refine .block ⟨UlLcid.ofCode lcid, pdu.length, 2⟩ (cons_ne_nil _ _) ?_
      (fun mem pos hmem => ulSubheader_of_short (by omega) hl hnone hmem) fun mem pos st hmem =>
        processLcid_sdu hvalid hhas rfl (hasBytes_append.mp hmem).2 st
    rw [length_append]
    rfl
  | long hl =>
    refine .block ⟨UlLcid.ofCode lcid, pdu.length, 3⟩ (cons_ne_nil _ _) ?_
      (fun mem pos hmem => ulSubheader_of_long (by omega) hl hnone hmem) fun mem pos st hmem =>
        processLcid_sdu hvalid hhas rfl (hasBytes_append.mp hmem).2 st
    rw [length_append]
    rfl

lemma SduRow.row {out : List UInt8} {taken : List (Nat × List UInt8)} (h : SduRow out taken)
    (hhas : ∀ sdu ∈ taken, (0 < sdu.1 ∧ sdu.1 ≤ 32) ∧ env.HasChannel sdu.1) :
    UlRow env out { sdus := taken } := by
  induction h with
  | nil => exact .nil
  | @snoc out header pdu taken lcid _ hheader _ ih =>
    have hlast := hhas (lcid, pdu) (mem_append_right _ mem_cons_self)
    exact (ih fun sdu hsdu => hhas sdu (mem_append_left _ hsdu)).append
      (hheader.row hlast.1 hlast.2)

/-! ## PHR -/

lemma PhrCe.row (phr : PhrCe) (hpid : 0 ≤ env.harqPid) :
    UlRow env phr.ce { phrs := [(phr.ph, phr.pcmax)] } := by
  refine .block ⟨.singleEntryPhr, 2, 1⟩ (cons_ne_nil _ _) rfl
    (fun mem pos hmem => ulSubheader_of_fixed (by decide) rfl rfl hmem) fun mem pos st hmem => ?_
  obtain ⟨-, hrest⟩ := hasBytes_cons.mp hmem
  obtain ⟨hph, hrest⟩ := hasBytes_cons.mp hrest
  obtain ⟨hpcmax, -⟩ := hasBytes_cons.mp hrest
  -- both octets are six bits
  have hbyte : ∀ v : Fin 64, (UInt8.ofNat (bits 6 0 v)).toNat % 64 = v := by decide
  rw [processLcid]
  dsimp only
  rw [if_neg (by omega)]
  refine ⟨_, rfl, ?_⟩
  rw [UlRx.decoded, val_read, val_read, hph, hpcmax, hbyte, hbyte]
  simp [UlDecoded.append_def, UlRx.decoded]

/-! ## BSR -/

/-- The LCGs with data among `ns`, with their values. -/
def lcgsWithData (lcgBsr : Nat → UInt8) (ns : List Nat) : List (Nat × UInt8) :=
  (ns.filter fun n => lcgBsr n ≠ 0).map fun n => (n, lcgBsr n)

lemma longBsrEntries_eq_take (lcgBsr : Nat → UInt8) : ∀ (ns : List Nat) (room : Nat),
    longBsrEntries lcgBsr ns room = (lcgsWithData lcgBsr ns).take room := by
  intro ns
  induction ns with
  | nil => exact fun room => take_nil.symm
  | cons n ns ih =>
    intro room
    rw [longBsrEntries, lcgsWithData]
    by_cases hdata : lcgBsr n ≠ 0
    · rw [filter_cons_of_pos (by simpa using hdata), map_cons, ← lcgsWithData]
      cases room with
      | zero =>
        rw [if_neg (fun h => lt_irrefl 0 h.2), ih, take_zero, take_zero]
      | succ room =>
        rw [if_pos ⟨hdata, Nat.succ_pos room⟩, ih, take_succ_cons, Nat.add_sub_cancel]
    · rw [filter_cons_of_neg (by simpa using hdata), if_neg fun h => hdata h.1, ih, lcgsWithData]

lemma length_lcgsWithData_le (lcgBsr : Nat → UInt8) (ns : List Nat) :
    (lcgsWithData lcgBsr ns).length ≤ ns.length := by
  rw [lcgsWithData, length_map]
  exact length_filter_le _ _

lemma length_longBsrEntries_le (lcgBsr : Nat → UInt8) (ns : List Nat) (room : Nat) :
    (longBsrEntries lcgBsr ns room).length ≤ room ∧
      (longBsrEntries lcgBsr ns room).length ≤ ns.length := by
  have hall := length_lcgsWithData_le lcgBsr ns
  rw [longBsrEntries_eq_take, length_take]
  omega

lemma mem_longBsrEntries {ns : List Nat} {e : Nat × UInt8} (h : e ∈ longBsrEntries lcgBsr ns room) :
    e.1 ∈ ns := by
  rw [longBsrEntries_eq_take] at h
  obtain ⟨n, hn, rfl⟩ := mem_map.mp (mem_of_mem_take h)
  exact (mem_filter.mp hn).1

lemma testBit_bsrBitmap (entries : List (Nat × UInt8)) (k : Nat) :
    (bsrBitmap entries).testBit k = true ↔ ∃ e ∈ entries, e.1 = k := by
  induction entries with
  | nil => simp [bsrBitmap]
  | cons e entries ih =>
    rw [bsrBitmap, foldr_cons, ← bsrBitmap, Nat.testBit_or, Bool.or_eq_true, ih,
      Nat.testBit_two_pow, decide_eq_true_iff, exists_mem_cons_iff]

theorem longBsrLoop_val {payload bitmap : Nat} :
    ∀ {ns : List Nat} {room m : Nat}, ns.Nodup →
      (∀ k ∈ ns, bitmap.testBit k = true ↔ ∃ e ∈ longBsrEntries lcgBsr ns room, e.1 = k) →
      HasBytes mem (payload + m) ((longBsrEntries lcgBsr ns room).map Prod.snd) →
      (longBsrLoop mem payload bitmap ns m).val =
        (longBsrEntries lcgBsr ns room).map fun e => (e.1, e.2.toNat) := by
  intro ns
  induction ns with
  | nil => exact fun _ _ _ => rfl
  | cons n ns ih =>
    intro room m hnodup hbits hmem
    obtain ⟨hnotin, hnodup⟩ := nodup_cons.mp hnodup
    rw [longBsrLoop]
    rw [longBsrEntries] at hbits hmem ⊢
    by_cases hentry : lcgBsr n ≠ 0 ∧ 0 < room
    · rw [if_pos hentry] at hbits hmem ⊢
      obtain ⟨hbyte, hrest⟩ := hasBytes_cons.mp hmem
      have hset := (hbits n mem_cons_self).mpr ⟨_, mem_cons_self, rfl⟩
      have htail : ∀ k ∈ ns, bitmap.testBit k = true ↔
          ∃ e ∈ longBsrEntries lcgBsr ns (room - 1), e.1 = k := by
        intro k hk
        rw [hbits k (mem_cons_of_mem n hk), exists_mem_cons_iff]
        exact or_iff_right fun hkn => hnotin (by rw [show n = k from hkn]; exact hk)
      rw [if_pos hset, val_bind, val_bind, val_read, val_pure, hbyte, ih hnodup htail hrest]
      rfl
    · rw [if_neg hentry] at hbits hmem ⊢
      have hclear : ¬bitmap.testBit n = true := fun hset => by
        obtain ⟨e, he, rfl⟩ := (hbits n mem_cons_self).mp hset
        exact hnotin (mem_longBsrEntries he)
      rw [if_neg hclear]
      exact ih hnodup (fun k hk => hbits k (mem_cons_of_mem n hk)) hmem

lemma processLcid_longBsr {lcid : UlLcid} (hlcid : lcid = .lTruncatedBsr ∨ lcid = .lBsr)
    {pos n : Nat} (st : UlRx) (hmem : HasBytes mem (pos + 2)
      (UInt8.ofNat (bsrBitmap (longBsrEntries lcgBsr (List.range 8) room)) ::
        (longBsrEntries lcgBsr (List.range 8) room).map Prod.snd)) :
    ∃ st', (processLcid env mem pos ⟨lcid, n, 2⟩ st).val = (.go (2 + n), st') ∧
      st'.decoded mem = st.decoded mem ++
        { bsrs := [(longBsrEntries lcgBsr (List.range 8) room).map fun e => (e.1, e.2.toNat)] } := by
  obtain ⟨hbitmap, hrest⟩ := hasBytes_cons.mp hmem
  have hval : (estimateUlBufferLongBsr mem (pos + 2)).val.2 =
      (longBsrEntries lcgBsr (List.range 8) room).map fun e => (e.1, e.2.toNat) := by
    rw [estimateUlBufferLongBsr, val_bind, val_pure, val_bind, val_read, hbitmap]
    refine longBsrLoop_val nodup_range (fun k hk => ?_) hrest
    rw [UInt8.toNat_ofNat', Nat.testBit_mod_two_pow, decide_eq_true (mem_range.mp hk),
      Bool.true_and, testBit_bsrBitmap]
  rcases hlcid with rfl | rfl
  all_goals
    refine ⟨_, rfl, ?_⟩
    rw [UlRx.decoded, hval]
    simp [UlDecoded.append_def, UlRx.decoded]

variable (trunc : Bool) (mac : UeMac) (lcgBytes : Nat → UInt32) (random : Nat → UInt8)

lemma longBsrCe_row (lcgBsr : Nat → UInt8) (room : Nat) :
    UlRow env (longBsrCe trunc (longBsrEntries lcgBsr (List.range 8) room))
      { bsrs := [(longBsrEntries lcgBsr (List.range 8) room).map fun e => (e.1, e.2.toNat)] } := by
  have hcount := (length_longBsrEntries_le lcgBsr (List.range 8) room).2
  rw [length_range] at hcount
  have hlcid : UlLcid.ofCode (if trunc then UlLcid.lTruncatedBsr else .lBsr).code = .lTruncatedBsr ∨
      UlLcid.ofCode (if trunc then UlLcid.lTruncatedBsr else .lBsr).code = .lBsr := by
    cases trunc
    · exact .inr rfl
    · exact .inl rfl
  refine .block ⟨_, 1 + (longBsrEntries lcgBsr (List.range 8) room).length, 2⟩
    (cons_ne_nil _ _) ?_ (fun mem pos hmem => ulSubheader_of_short ?_ (by omega) ?_ hmem)
    fun mem pos st hmem => processLcid_longBsr hlcid st (hasBytes_append.mp hmem).2
  · rw [longBsrCe, length_append, length_cons, length_map, UlSubheader.size]
    show 2 + (1 + _) = 2 + (_ + 1)
    omega
  · cases trunc <;> decide
  · rcases hlcid with hcode | hcode <;> rw [hcode, UlLcid.fixedLength]

lemma shortBsrCe_row (lcgId : Fin 8) (bufferSize : Fin 32) (room : Nat) :
    UlRow env ((UeBsr.short trunc lcgId bufferSize).ce room)
      { bsrs := [[(lcgId, bufferSize)]] } := by
  have hbyte : ∀ (l : Fin 8) (b : Fin 32),
      (UInt8.ofNat (bits 5 0 b + bits 3 5 l)).toNat % 32 = b ∧
        (UInt8.ofNat (bits 5 0 b + bits 3 5 l)).toNat / 32 = l := by decide
  have hstep : ∀ (lcid : UlLcid) (mem : Nat → UInt8) (pos : Nat) (st : UlRx),
      lcid = .sTruncatedBsr ∨ lcid = .sBsr →
      mem (pos + 1) = UInt8.ofNat (bits 5 0 bufferSize + bits 3 5 lcgId) →
      ∃ st', (processLcid env mem pos ⟨lcid, 1, 1⟩ st).val = (.go 2, st') ∧
        st'.decoded mem = st.decoded mem ++ { bsrs := [[((lcgId : Nat), (bufferSize : Nat))]] } := by
    intro lcid mem pos st hlcid hmem
    have hval : (estimateUlBufferShortBsr mem (pos + 1)).val.2 =
        [((lcgId : Nat), (bufferSize : Nat))] := by
      rw [estimateUlBufferShortBsr, val_bind, val_read, val_pure, hmem, (hbyte lcgId bufferSize).1,
        (hbyte lcgId bufferSize).2]
    rcases hlcid with rfl | rfl
    all_goals
      refine ⟨_, rfl, ?_⟩
      rw [UlRx.decoded, hval]
      simp [UlDecoded.append_def, UlRx.decoded]
  cases trunc with
  | false =>
    exact .block ⟨.sBsr, 1, 1⟩ (cons_ne_nil _ _) rfl
      (fun mem pos hmem => ulSubheader_of_fixed (by decide) rfl rfl hmem)
      fun mem pos st hmem => hstep _ mem pos st (.inr rfl)
        (hasBytes_cons.mp (hasBytes_cons.mp hmem).2).1
  | true =>
    exact .block ⟨.sTruncatedBsr, 1, 1⟩ (cons_ne_nil _ _) rfl
      (fun mem pos hmem => ulSubheader_of_fixed (by decide) rfl rfl hmem)
      fun mem pos st hmem => hstep _ mem pos st (.inl rfl)
        (hasBytes_cons.mp (hasBytes_cons.mp hmem).2).1

/-- What a BSR reports.  A long one has every LCG with data; truncated, the first ones that fit behind
the subheader and the bitmap. -/
def UeBsr.values (room : Nat) : UeBsr → List (List (Nat × Nat))
  | .none => []
  | .short _ lcgId bufferSize => [[(lcgId, bufferSize)]]
  | .long false lcgBsr => [(lcgsWithData lcgBsr (List.range 8)).map fun e => (e.1, e.2.toNat)]
  | .long true lcgBsr =>
    [((lcgsWithData lcgBsr (List.range 8)).take (room - 3)).map fun e => (e.1, e.2.toNat)]

/-- The formats `nr_ue_get_sdu_mac_ce_post` chooses from, and the room each has. -/
inductive ChosenBsr (room : Nat) : UeBsr → Prop
  | none : ChosenBsr room .none
  | shortTrunc {lcgId : Fin 8} {bufferSize : Fin 32} (h : room = 2) :
      ChosenBsr room (.short true lcgId bufferSize)
  | long {lcgBsr : Nat → UInt8} (h : 11 ≤ room) : ChosenBsr room (.long false lcgBsr)
  | longTrunc {lcgBsr : Nat → UInt8} (h : 3 ≤ room) : ChosenBsr room (.long true lcgBsr)

lemma chooseBsr_chosen (bufferRemain : Nat → Nat) (lcgBytes : Nat → UInt32)
    (room : Nat) : ChosenBsr room (chooseBsr mac bufferRemain lcgBytes room) := by
  rw [chooseBsr, if_neg fun h => absurd h.1 (by decide)]
  split
  · next h => exact .long h
  · split
    · next h => exact .shortTrunc h
    · split
      · next h => exact .longTrunc h
      · exact .none

lemma length_longBsrCe_le (lcgBsr : Nat → UInt8) (hroom : 3 ≤ room) :
    (longBsrCe trunc (longBsrEntries lcgBsr (List.range 8) (room - 3))).length ≤ room := by
  have hcount := (length_longBsrEntries_le lcgBsr (List.range 8) (room - 3)).1
  rw [longBsrCe, length_append, length_cons, length_map]
  show 2 + (_ + 1) ≤ room
  omega

lemma ChosenBsr.length_le (h : ChosenBsr room bsr) : (bsr.ce room).length ≤ room := by
  cases h with
  | none => exact Nat.zero_le room
  | shortTrunc h => exact h.ge
  | long h => exact length_longBsrCe_le false _ (by omega)
  | longTrunc h => exact length_longBsrCe_le true _ h

theorem ChosenBsr.row (h : ChosenBsr room bsr) :
    UlRow env (bsr.ce room) { bsrs := bsr.values room } := by
  cases h with
  | none => exact .nil
  | shortTrunc => exact shortBsrCe_row true _ _ room
  | @long lcgBsr h =>
    have hrow := @longBsrCe_row env false lcgBsr (room - 3)
    have hall := length_lcgsWithData_le lcgBsr (List.range 8)
    rw [length_range] at hall
    -- eight LCGs always fit
    rw [longBsrEntries_eq_take, take_of_length_le (by omega)] at hrow
    rw [UeBsr.ce, longBsrEntries_eq_take, take_of_length_le (by omega)]
    exact hrow
  | @longTrunc lcgBsr h =>
    have hrow := @longBsrCe_row env true lcgBsr (room - 3)
    rw [longBsrEntries_eq_take] at hrow
    rw [UeBsr.ce, longBsrEntries_eq_take]
    exact hrow

/-! ## The transport block is a row -/

/-- The gNB takes what has been written: no SDU of SRB3, one of SRB1 and SRB2 with a cell group, and a PHR
with a HARQ process. -/
structure GnbEnv.Accepts (env : GnbEnv) (tb : UlTransportBlock) : Prop where
  channels : ∀ sdu ∈ tb.taken, env.HasChannel sdu.1
  phr : tb.phr.isSome → 0 ≤ env.harqPid

/-- The power headroom report in the block. -/
def UlTransportBlock.phrs (tb : UlTransportBlock) : List (Nat × Nat) :=
  tb.phr.toList.map fun phr => ((phr.ph : Nat), (phr.pcmax : Nat))

/-- What has been written into the block. -/
def UlTransportBlock.content (tb : UlTransportBlock) : UlDecoded :=
  ⟨tb.taken, tb.phrs, tb.bsr.values tb.bsrRoom⟩

variable {buflen : Nat}

lemma planned_le (regular : Bool) (hbuflen : 3 ≤ buflen) :
    plannedBsrLen mac lcgBytes regular buflen +
      plannedPhrLen mac buflen (plannedBsrLen mac lcgBytes regular buflen) ≤ buflen := by
  have hbsr : plannedBsrLen mac lcgBytes regular buflen ≤ buflen := by
    rw [plannedBsrLen]
    split
    · dsimp only
      split
      · next h => exact h.2
      · split <;> omega
    · exact Nat.zero_le _
  rw [plannedPhrLen]
  split
  · next h => exact h.2.2
  · exact hbsr

lemma ulPadding_spec (phyTest : Bool) (random : Nat → UInt8) (remain : Nat) :
    (ulPadding phyTest random remain).length = remain ∧
      (remain ≠ 0 → ∃ rest, ulPadding phyTest random remain =
        subheaderFixed UlLcid.padding.code :: rest) := by
  rw [ulPadding]
  split
  · next hne =>
    refine ⟨?_, fun _ => ⟨_, rfl⟩⟩
    rw [length_cons]
    split
    · rw [length_slice]
      omega
    · rw [length_replicate]
      omega
  · next hzero => exact ⟨(not_not.mp hzero).symm, fun hne => absurd hne hzero⟩

lemma nrWriteCeUlschPdu_row {phr : Option PhrCe} (hphr : phr.isSome = true → 0 ≤ env.harqPid)
    (hbsr : ChosenBsr room bsr) :
    UlRow env (nrWriteCeUlschPdu phr bsr room)
      { phrs := phr.toList.map fun phr => ((phr.ph : Nat), (phr.pcmax : Nat))
        bsrs := bsr.values room } := by
  cases phr with
  | none => exact UlRow.nil.append hbsr.row
  | some phr => exact (phr.row (hphr rfl)).append hbsr.row

lemma plannedPhrLen_cases (buflen bsrLen : Nat) :
    plannedPhrLen mac buflen bsrLen = 0 ∨ plannedPhrLen mac buflen bsrLen = 3 := by
  rw [plannedPhrLen]
  split
  · exact .inr rfl
  · exact .inl rfl

lemma nrUeGetSduMacCePost_eq {bufferRemain : Nat → Nat} {lcgBytes : Nat → UInt32}
    (h : nrUeGetSduMacCePost mac bufferRemain lcgBytes room = .ok bsr) :
    chooseBsr mac bufferRemain lcgBytes room = bsr := by
  rw [nrUeGetSduMacCePost] at h
  split at h
  · next hshort =>
    split at h
    · cases h
    · rw [hshort]
      exact Except.ok.inj h
  · exact Except.ok.inj h

variable {ρ : Type} {phrLen : Nat} {pCmax txPower : Int} {phyTest : Bool} {tb : UlTransportBlock}

/-- The end of the PDU: behind the SDUs the CEs, with a BSR that fits, then the padding. -/
lemma finishPdu_ok {random : Nat → UInt8} {st : LcpState ρ}
    (h : finishPdu mac buflen phrLen pCmax txPower phyTest random st = .ok tb) :
    tb.taken = st.taken ∧ tb.phr = (if phrLen = 0 then none else some (nrUeFillPhr pCmax txPower)) ∧
      tb.bsrRoom = buflen - st.out.length - phrLen ∧ ChosenBsr tb.bsrRoom tb.bsr ∧
      tb.written = (st.out ++ nrWriteCeUlschPdu tb.phr tb.bsr tb.bsrRoom).length ∧
      tb.bytes = st.out ++ nrWriteCeUlschPdu tb.phr tb.bsr tb.bsrRoom ++
        ulPadding phyTest random (buflen - tb.written) := by
  rw [finishPdu] at h
  generalize hpost : nrUeGetSduMacCePost _ _ _ _ = post at h
  cases post with
  | error e => cases h
  | ok bsr =>
    cases h
    refine ⟨rfl, rfl, rfl, ?_, rfl, rfl⟩
    rw [← nrUeGetSduMacCePost_eq mac hpost]
    exact chooseBsr_chosen mac st.bufferRemain st.lcgBytes _

theorem finishPdu_length {random : Nat → UInt8} {st : LcpState ρ}
    (h : finishPdu mac buflen phrLen pCmax txPower phyTest random st = .ok tb)
    (hphrLen : phrLen = 0 ∨ phrLen = 3) (hfits : st.out.length + phrLen ≤ buflen) :
    tb.bytes.length = buflen := by
  obtain ⟨-, hphr, hroom, hbsr, hwritten, hbytes⟩ := finishPdu_ok mac h
  have hlen := hbsr.length_le
  have hphr : (phrCe tb.phr).length = phrLen := by
    rw [hphr]
    rcases hphrLen with rfl | rfl <;> rfl
  rw [hbytes, length_append, (ulPadding_spec _ _ _).1, ← hwritten]
  rw [length_append, nrWriteCeUlschPdu, length_append] at hwritten
  omega

/-- The PDU is a row of subPDUs, then padding. -/
theorem finishPdu_spec {mac : UeMac} {random : Nat → UInt8} {st : LcpState ρ}
    {lcs : List LcOrderedInfo} {endForTailer : Nat} (hinv : LcpInv endForTailer lcs st)
    (h : finishPdu mac buflen phrLen pCmax txPower phyTest random st = .ok tb)
    (haccepts : env.Accepts tb) :
    ∃ row pad, tb.bytes = row ++ pad ∧ tb.written = row.length ∧ UlRow env row tb.content ∧
      (pad ≠ [] → ∃ rest, pad = subheaderFixed UlLcid.padding.code :: rest) := by
  obtain ⟨htaken, -, -, hbsr, hwritten, hbytes⟩ := finishPdu_ok mac h
  have hsdus : UlRow env st.out { sdus := tb.taken } := by
    rw [htaken]
    refine hinv.row.row fun sdu hsdu => ?_
    obtain ⟨lc, hlc, hlcid⟩ := hinv.served sdu hsdu
    exact ⟨hlcid ▸ lc.valid, haccepts.channels sdu (htaken ▸ hsdu)⟩
  have hrow := hsdus.append (nrWriteCeUlschPdu_row haccepts.phr hbsr)
  obtain ⟨hpadLen, hpad⟩ := ulPadding_spec phyTest random (buflen - tb.written)
  refine ⟨_, _, hbytes, hwritten, ?_, fun hne => hpad fun hzero => hne ?_⟩
  · rw [UlDecoded.append_def, append_nil] at hrow
    exact hrow
  · exact length_eq_zero_iff.mp (hpadLen.trans hzero)

/-! ## The round trip -/

/-- **The round trip of a transport block.** From any memory that begins with it, the gNB returns 0 and
has decoded exactly the RLC PDUs, the PHR and the BSR that the UE put in; the padding, if any, is the
last sub-PDU met. -/
def UlRoundTrip (env : GnbEnv) (ctrl : UlCtrl) (tb : UlTransportBlock) : Prop :=
  ∀ mem, HasBytes mem 0 tb.bytes → ∃ st,
    (nrProcessMacPdu env mem tb.bytes.length ctrl).val = some (.returned 0, st) ∧
    st.decoded mem = tb.content ∧
    (tb.written < tb.bytes.length → st.met.getLast? = some (tb.written, ⟨.padding, 0, 1⟩))

lemma processSubPdu_padding {p rem : Nat} {st : UlRx} {rest : List UInt8}
    (hmem : HasBytes mem p (subheaderFixed UlLcid.padding.code :: rest)) (hrem : 0 < rem) :
    (processSubPdu env mem p rem st).val =
      (.stop (.returned 0), { st with met := st.met ++ [(p, ⟨.padding, 0, 1⟩)] }) := by
  have hheader : (decodeUlMacSubPduHeader mem p).val = ⟨.padding, 0, 1⟩ :=
    ulSubheader_of_fixed (by decide) rfl rfl hmem
  have hsize : ¬(⟨.padding, 0, 1⟩ : UlSubheader).size > rem := by
    exact not_lt.mpr hrem
  rw [processSubPdu, val_bind, hheader, processDecoded, if_neg hsize]
  rfl

/-- The gNB reads a row of subPDUs back. -/
theorem UlRow.roundTrip {row pad : List UInt8} (ctrl : UlCtrl)
    (hrow : UlRow env row tb.content) (hbytes : tb.bytes = row ++ pad)
    (hwritten : tb.written = row.length)
    (hpad : pad ≠ [] → ∃ rest, pad = subheaderFixed UlLcid.padding.code :: rest) :
    UlRoundTrip env ctrl tb := by
  intro mem hmem
  rw [hbytes] at hmem
  obtain ⟨hholds, hrest⟩ := hasBytes_append.mp hmem
  rw [Nat.zero_add] at hrest
  have hlen : tb.bytes.length = row.length + pad.length := by rw [hbytes, length_append]
  obtain ⟨st, hleads, hdecoded⟩ := hrow mem 0 (row.length + pad.length) { toUlCtrl := ctrl } hholds
    (Nat.le_add_right _ _)
  rw [Nat.add_sub_cancel_left, Nat.zero_add] at hleads
  obtain ⟨fuel, hfuel, hblocks⟩ := hleads.blocks (processSubPdu_progress env mem) (le_refl _)
  have hprocess : (nrProcessMacPdu env mem tb.bytes.length ctrl).val =
      (blocks (processSubPdu env mem) fuel row.length pad.length st).val.map
        fun r => (r.1.getD (.returned 0), r.2) := by
    rw [nrProcessMacPdu, val_bind, val_bind, val_pure, hlen, hblocks]
  by_cases hne : pad = []
  · subst hne
    refine ⟨st, ?_, hdecoded, fun hlt => ?_⟩
    · rw [hprocess, length_nil, blocks_zero]
      rfl
    · rw [hlen, hwritten] at hlt
      exact absurd hlt (lt_irrefl _)
  · obtain ⟨rest, rfl⟩ := hpad hne
    refine ⟨{ st with met := st.met ++ [(row.length, ⟨.padding, 0, 1⟩)] }, ?_, hdecoded, fun _ => ?_⟩
    · rw [length_cons] at hfuel hprocess
      obtain ⟨fuel, rfl⟩ : ∃ k, fuel = k + 1 := ⟨fuel - 1, by omega⟩
      rw [hprocess, blocks, if_neg (Nat.succ_ne_zero _), val_bind,
        processSubPdu_padding hrest (Nat.succ_pos _)]
      rfl
    · rw [getLast?_concat, hwritten]

/-- **What `nr_ue_get_sdu` writes, `nr_process_mac_pdu` reads**, whenever the former completes: for
every configuration and buffer state, RLC, trigger state, power and transport block size. -/
theorem ul_mac_pdu_round_trip {ρ : Type} (src : RlcSource ρ) (mac : UeMac) {buflen : Nat}
    (hbuflen : 3 ≤ buflen) (pCmax txPower : Int) (phyTest : Bool) (random : Nat → UInt8) (rlc : ρ)
    {tb : UlTransportBlock} (hget : nrUeGetSdu src mac buflen pCmax txPower phyTest random rlc = .ok tb)
    (env : GnbEnv) (haccepts : env.Accepts tb) (ctrl : UlCtrl) :
    tb.bytes.length = buflen ∧ UlRoundTrip env ctrl tb := by
  rw [nrUeGetSdu] at hget
  generalize hbsr : nrUpdateBsr mac mac.lcOrderedList (fun _ => 0, mac.bsrRegular) = bsr at hget
  have hplanned := planned_le mac bsr.1 bsr.2 hbuflen
  generalize plannedBsrLen mac bsr.1 bsr.2 buflen = bsrLen at hget hplanned
  generalize hphrLen : plannedPhrLen mac buflen bsrLen = phrLen at hget hplanned
  generalize hrun : lcpRounds src mac _ _ _ _ = run at hget
  cases run with
  | error e => cases hget
  | ok st =>
    change finishPdu mac buflen phrLen pCmax txPower phyTest random st = .ok tb at hget
    have hinv := lcpRounds_inv ⟨.nil, Nat.zero_le _, fun _ h => absurd h not_mem_nil⟩ hrun
    have hfits := hinv.fits
    have hcases := hphrLen ▸ plannedPhrLen_cases mac buflen bsrLen
    obtain ⟨row, pad, hbytes, hwritten, hrow, hpad⟩ := finishPdu_spec hinv hget haccepts
    exact ⟨finishPdu_length mac hget hcases (by omega), hrow.roundTrip ctrl hbytes hwritten hpad⟩

lemma UlRoundTrip.result {ctrl : UlCtrl} (h : UlRoundTrip env ctrl tb) :
    (nrProcessMacPdu env (fun i => tb.bytes.getD i 0) tb.bytes.length ctrl).val.map
      (fun r => (r.1, r.2.phrs)) = some (.returned 0, tb.phrs) := by
  obtain ⟨st, hval, hdecoded, -⟩ := h _ (hasBytes_getD tb.bytes)
  rw [hval, Option.map_some, ← show st.phrs = tb.phrs from congrArg UlDecoded.phrs hdecoded]

/-- A UE with one logical channel of group `lcgid` and three bytes waiting; a PHR is to be sent if `phr`. -/
def oneChannelUe (lcid : Nat) (hvalid : 0 < lcid ∧ lcid ≤ 32) (lcgid : Fin 9) (phr : Bool) : UeMac where
  lcOrderedList := [⟨lcid, 1, 1000, hvalid⟩]
  distinct := pairwise_singleton _ _
  lcSchedInfo _ := ⟨3, lcgid, 1000⟩
  bsrRegular := false
  bsrPeriodic := false
  phrIsConfigured := phr
  phrReporting := 1

/-- `nr_ue_get_sdu` of such a UE. -/
def oneChannelSdu (lcid : Nat) (hvalid : 0 < lcid ∧ lcid ≤ 32) (lcgid : Fin 9) (phr : Bool)
    (buflen : Nat) : Except LcpStop UlTransportBlock :=
  nrUeGetSdu (onePdu [1, 2, 3] (by decide)) (oneChannelUe lcid hvalid lcgid phr) buflen 23 10 false
    (fun _ => 0) true

/-- A gNB with the UE's cell group. -/
def connectedGnb : GnbEnv := ⟨0, true, false, fun _ => true, 0⟩

theorem ul_mac_pdu_round_trip_srb1 : ∃ tb, oneChannelSdu 1 (by decide) 0 true 24 = .ok tb ∧
    tb.taken = [(1, [1, 2, 3])] ∧ tb.phrs = [(45, 52)] ∧ tb.written < 24 ∧
    tb.bytes.length = 24 ∧ UlRoundTrip connectedGnb ⟨0, 0, 0, 0⟩ tb := by
  have htrip : ∀ tb, oneChannelSdu 1 (by decide) 0 true 24 = .ok tb → tb.taken = [(1, [1, 2, 3])] →
      tb.bytes.length = 24 ∧ UlRoundTrip connectedGnb ⟨0, 0, 0, 0⟩ tb := by
    intro tb hget htaken
    have haccepts : connectedGnb.Accepts tb := by
      refine ⟨fun sdu hsdu => ?_, fun _ => by decide⟩
      rw [htaken] at hsdu
      rw [mem_singleton.mp hsdu]
      exact ⟨by decide, fun _ => rfl⟩
    exact ul_mac_pdu_round_trip _ _ (by decide) 23 10 false (fun _ => 0) true hget connectedGnb haccepts _
  exact ⟨_, rfl, by decide +kernel, by decide +kernel, by decide +kernel,
    htrip _ rfl (by decide +kernel)⟩

/-- **SRB3 is not read back**: the gNB has no case for its LCID, takes one byte for the subheader,
returns -1 and hands nothing to RLC.  Nor is SRB1 without a cell group, or a PHR without a HARQ
process.  And a channel without a group is not written at all: the UE leaves `LCG_bytes`. -/
theorem ul_mac_pdu_srb3_refused :
    (∃ tb, oneChannelSdu 3 (by decide) 0 false 8 = .ok tb ∧ tb.taken = [(3, [1, 2, 3])] ∧
      (nrProcessMacPdu connectedGnb (fun i => tb.bytes.getD i 0) 8 ⟨0, 0, 0, 0⟩).val.map
        (fun r => (r.1, r.2.rlc)) = some (.returned (-1), []) ∧
      ¬UlRoundTrip connectedGnb ⟨0, 0, 0, 0⟩ tb) ∧
    (∃ tb, oneChannelSdu 1 (by decide) 0 false 8 = .ok tb ∧
      ¬UlRoundTrip { connectedGnb with cellGroup := false } ⟨0, 0, 0, 0⟩ tb) ∧
    (∃ tb, oneChannelSdu 4 (by decide) 0 true 12 = .ok tb ∧
      ¬UlRoundTrip { connectedGnb with harqPid := -1 } ⟨0, 0, 0, 0⟩ tb) ∧
    oneChannelSdu 4 (by decide) 8 false 8 = .error .outOfBounds := by
  refine ⟨⟨_, rfl, by decide +kernel, by decide +kernel, fun h => ?_⟩, ⟨_, rfl, fun h => ?_⟩,
    ⟨_, rfl, fun h => ?_⟩, rfl⟩
  all_goals exact absurd h.result (by decide +kernel)

end NrStack.Mac
