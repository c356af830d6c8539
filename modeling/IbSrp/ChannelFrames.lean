import IbSrp.ChannelSystem

/-!
# What the channel functions leave alone

Each lemma names the fields a function may change. A registration attempt and a
mapping change the pool, the send queue and the call counters; taking or
returning a transmit buffer changes the buffer list, the request limit and, by
polling, the send queue.
-/
namespace IbSrp.ChannelFrames
open MemoryRegistration MappingCoverage MappingResults Channel

/-- The channels differ at most in what a mapping changes. -/
def MappingOnly (ch ch' : SrpRdmaCh) : Prop :=
  ∃ pool posts sq fmrMaps,
    ch' = { ch with pool := pool, posts := posts, sq := sq, fmrMaps := fmrMaps }

theorem MappingOnly.refl (ch : SrpRdmaCh) : MappingOnly ch ch := ⟨_, _, _, _, rfl⟩

theorem MappingOnly.trans {a b c : SrpRdmaCh} (h : MappingOnly a b) (h' : MappingOnly b c) :
    MappingOnly a c := by
  obtain ⟨pool, posts, sq, maps, rfl⟩ := h
  obtain ⟨pool', posts', sq', maps', rfl⟩ := h'
  exact ⟨pool', posts', sq', maps', rfl⟩

section
variable (hca : Hca) (target : SrpTargetPort)

theorem ibPostSend_frame (wr : Wr) (ch : SrpRdmaCh) : MappingOnly ch (ibPostSend hca wr ch).2 :=
  ⟨_, _, _, _, rfl⟩

theorem srpPostSend_frame (iu numSge : ℕ) (ch : SrpRdmaCh) :
    ∃ posts sq, (srpPostSend hca iu numSge ch).2 = { ch with posts := posts, sq := sq } ∧
      sq.length ≤ ch.sq.length+1 := by
  unfold srpPostSend
  split_ifs
  · exact ⟨ch.posts, ch.sq, rfl, Nat.le_succ _⟩
  · refine ⟨_, _, rfl, ?_⟩
    split_ifs <;> simp

theorem mappingOnly_srpPostSend (iu numSge : ℕ) (ch : SrpRdmaCh) :
    MappingOnly ch (srpPostSend hca iu numSge ch).2 := by
  obtain ⟨posts, sq, h, _⟩ := srpPostSend_frame hca iu numSge ch
  rw [h]
  exact ⟨_, _, _, _, rfl⟩

theorem srpFrPoolGet_frame (ch : SrpRdmaCh) : MappingOnly ch (srpFrPoolGet ch).2 := by
  unfold srpFrPoolGet
  cases ch.pool.freeList with
  | nil => exact .refl ch
  | cons d freeList => exact ⟨_, _, _, _, rfl⟩

theorem attempt_frame {useFastReg : Bool} {ch : SrpRdmaCh} {pages : List ℕ}
    {o : Outcome × Option MrDesc × SrpRdmaCh}
    (h : attempt (mrOps hca) useFastReg ch pages = o) : MappingOnly ch o.2.2 := by
  subst h
  cases useFastReg with
  | false =>
      simp only [attempt, mrOps, Bool.false_eq_true, if_false]
      cases hca.fmrPoolMapPhys ch.fmrMaps with
      | none => exact ⟨_, _, _, _, rfl⟩
      | some idx => exact ⟨_, _, _, _, rfl⟩
  | true =>
      have hget := srpFrPoolGet_frame ch
      simp only [attempt, mrOps, if_true]
      obtain ⟨d, ch₁, he⟩ : ∃ d ch₁, srpFrPoolGet ch = (d, ch₁) := ⟨_, _, rfl⟩
      rw [he] at hget ⊢
      cases d with
      | none => exact hget
      | some d => exact hget.trans (ibPostSend_frame hca _ ch₁)

/-- A request slot changes at most its list of memory descriptors. -/
def SlotMapped (i : ℕ) (ch ch' : SrpRdmaCh) : Prop :=
  ∃ ch₁ mrList, MappingOnly ch ch₁ ∧ (ch' = ch₁ ∨
    ch' = ch₁.setReq i { ch₁.reqRing i with mrList := mrList })

/-- `srp_map_data` makes registration attempts and stores their memory descriptors. -/
theorem srpMapData_relates {R : SrpRdmaCh → SrpRdmaCh → Prop} (hrefl : ∀ a, R a a)
    (htrans : ∀ a b c, R a b → R b c → R a c)
    (hattempt : ∀ {ch pages o}, attempt (mrOps hca) target.dev.useFastReg ch pages = o → R ch o.2.2)
    {scmnd : ScsiCmnd} {i : ℕ} {ch ch' : SrpRdmaCh} {l : Option CmdLayout}
    (h : srpMapData hca target scmnd i ch = (l, ch')) :
    ∃ ch₁ mrList, R ch ch₁ ∧ (ch' = ch₁ ∨
      ch' = ch₁.setReq i { ch₁.reqRing i with mrList := mrList }) := by
  unfold srpMapData at h
  cases hsg : scmnd.sglist with
  | none =>
      rw [hsg] at h
      cases h
      exact ⟨ch, [], hrefl ch, Or.inl rfl⟩
  | some scat =>
      rw [hsg] at h
      simp only at h
      obtain ⟨⟨st, ch₁⟩, hmap, hresult, _⟩ := srpMapSg_spec target.dev target.registerAlways
        target.hasPool (mrOps hca) ch (scmnd.len_lt scat hsg)
      have hframe : R ch ch₁ := mapResult_relates hrefl htrans hattempt hresult
      rw [hmap] at h
      simp only at h
      split_ifs at h <;> cases h
      · exact ⟨ch, [], hrefl ch, Or.inl rfl⟩
      · exact ⟨ch, [], hrefl ch, Or.inl rfl⟩
      · exact ⟨ch, [], hrefl ch, Or.inl rfl⟩
      · exact ⟨ch, [], hrefl ch, Or.inr rfl⟩
      · exact ⟨ch, [], hrefl ch, Or.inr rfl⟩
      · exact ⟨ch₁, st.mrList, hframe, Or.inr rfl⟩
      · exact ⟨ch₁, st.mrList, hframe, Or.inr rfl⟩
      · exact ⟨ch₁, st.mrList, hframe, Or.inr rfl⟩

theorem srpMapData_frame {scmnd : ScsiCmnd} {i : ℕ} {ch ch' : SrpRdmaCh} {l : Option CmdLayout}
    (h : srpMapData hca target scmnd i ch = (l, ch')) : SlotMapped i ch ch' :=
  srpMapData_relates hca target MappingOnly.refl (fun _ _ _ => MappingOnly.trans)
    (attempt_frame hca) h

theorem invalidate_frame (descs : List MrDesc) (ch : SrpRdmaCh) :
    MappingOnly ch (descs.foldl (fun ch d => (srpInvRkey hca d ch).2) ch) := by
  induction descs generalizing ch with
  | nil => exact .refl ch
  | cons d descs ih => exact (ibPostSend_frame hca (.localInv d) ch).trans (ih _)

theorem srpUnmapData_frame (scmnd : ScsiCmnd) (i : ℕ) (ch : SrpRdmaCh) :
    ∃ touched, MappingOnly { ch with touched := touched } (srpUnmapData hca target scmnd i ch) := by
  unfold srpUnmapData
  split_ifs
  · refine ⟨ch.touched++(ch.reqRing i).mrList.map fun d => (d, ch.pool.id), ?_⟩
    refine (invalidate_frame hca (ch.reqRing i).mrList _).trans ?_
    exact ⟨_, _, _, _, rfl⟩
  · exact ⟨ch.touched, .refl ch⟩

end

theorem srpGetTxIu_frame (iuType : SrpIuType) (ch : SrpRdmaCh) :
    ∃ freeTx reqLim qpInError, (srpGetTxIu iuType ch).2 =
      { ch with freeTx := freeTx, reqLim := reqLim, qpInError := qpInError,
                sq := unreleased ch.sq } := by
  unfold srpGetTxIu
  simp only
  split
  · exact ⟨_, _, _, rfl⟩
  · split_ifs <;> exact ⟨_, _, _, rfl⟩

/-- What sending an information unit of its own can do: find no buffer, or take one, post it
and put it back if it could not be posted. -/
inductive SendIu (hca : Hca) (iuType : SrpIuType) (ch : SrpRdmaCh) : SrpRdmaCh → Prop
  | noIu {ch₁ : SrpRdmaCh} : srpGetTxIu iuType ch = (none, ch₁) → SendIu hca iuType ch ch₁
  | posted {ch₁ : SrpRdmaCh} {iu : ℕ} : srpGetTxIu iuType ch = (some iu, ch₁) →
      SendIu hca iuType ch (srpPostSend hca iu 1 ch₁).2
  | putBack {ch₁ : SrpRdmaCh} {iu : ℕ} : srpGetTxIu iuType ch = (some iu, ch₁) →
      SendIu hca iuType ch (srpPutTxIu iu iuType (srpPostSend hca iu 1 ch₁).2)

theorem sendIu_srpSendIu (hca : Hca) (iuType : SrpIuType) (ch : SrpRdmaCh) :
    SendIu hca iuType ch (srpSendIu hca iuType ch).2 := by
  unfold srpSendIu
  obtain ⟨o, ch₁, hget⟩ : ∃ o ch₁, srpGetTxIu iuType ch = (o, ch₁) := ⟨_, _, rfl⟩
  rw [hget]
  cases o with
  | none => exact .noIu hget
  | some iu =>
      obtain ⟨ok, ch₂, hpost⟩ : ∃ ok ch₂, srpPostSend hca iu 1 ch₁ = (ok, ch₂) := ⟨_, _, rfl⟩
      have hch₂ : (srpPostSend hca iu 1 ch₁).2 = ch₂ := by rw [hpost]
      simp only [hpost]
      rw [← hch₂]
      cases ok with
      | true => exact .posted hget
      | false => exact .putBack hget

theorem sendIu_srpSendTskMgmt (hca : Hca) (ch : SrpRdmaCh) :
    SendIu hca .tskMgmt ch (srpSendTskMgmt hca ch).2 :=
  sendIu_srpSendIu hca .tskMgmt ch

theorem sendIu_srpResponseCommon (hca : Hca) (delta : BitVec 32) (ch : SrpRdmaCh) :
    SendIu hca .rsp { ch with reqLim := ch.reqLim+delta } (srpResponseCommon hca delta ch).2 :=
  sendIu_srpSendIu hca .rsp _

theorem SendIu.frame {hca : Hca} {iuType : SrpIuType} {ch ch' : SrpRdmaCh}
    (h : SendIu hca iuType ch ch') : ∃ freeTx reqLim qpInError posts sq,
      ch' = { ch with freeTx := freeTx, reqLim := reqLim, qpInError := qpInError, posts := posts,
                      sq := sq } ∧
      sq.length ≤ (unreleased ch.sq).length+1 := by
  have hpolled := srpGetTxIu_frame iuType ch
  cases h with
  | noIu hget =>
      obtain ⟨freeTx, reqLim, qpInError, he⟩ := hpolled
      rw [hget] at he
      exact ⟨freeTx, reqLim, qpInError, _, _, he, Nat.le_succ _⟩
  | @posted ch₁ iu hget =>
      obtain ⟨freeTx, reqLim, qpInError, he⟩ := hpolled
      obtain ⟨posts, sq, hpost, hlen⟩ := srpPostSend_frame hca iu 1 ch₁
      rw [hget] at he
      simp only at he
      subst he
      exact ⟨freeTx, reqLim, qpInError, posts, sq, hpost, hlen⟩
  | @putBack ch₁ iu hget =>
      obtain ⟨freeTx, reqLim, qpInError, he⟩ := hpolled
      obtain ⟨posts, sq, hpost, hlen⟩ := srpPostSend_frame hca iu 1 ch₁
      rw [hget] at he
      simp only at he
      subst he
      rw [hpost]
      exact ⟨_, _, qpInError, posts, sq, rfl, hlen⟩

end IbSrp.ChannelFrames
