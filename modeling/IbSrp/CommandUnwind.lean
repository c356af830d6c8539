import IbSrp.DescriptorPool
import IbSrp.MappingBounds

/-!
# Commands that are not sent

`srp_queuecommand` takes a transmit buffer with its credit, a request slot, a DMA
mapping of the S/G list and memory descriptors, and posts the SRP_CMD last. This
module adds to the channel what a mapping holds outside of it: the FMRs that were
mapped and the S/G lists that are DMA-mapped, both until they are unmapped. The
functions are those of the channel with the calls that concern these two; what
they do to the channel is what the functions of the channel do.

The main result says when a command that was not sent leaves no trace: always,
but for a list that takes more descriptors than fit in the SRP_CMD. That error is
detected after the list has been mapped, and the label it jumps to does not unmap
it. A target without a pool takes one descriptor for each entry that is not empty.
With a pool the number depends on the registrations the channel can get, hence on the
pool and on the answers of the HCA, and on nothing else; without fast registration it is
at most the number of entries.
-/
namespace IbSrp.CommandUnwind
open MemoryRegistration MappingCoverage MappingResults MappingBounds Channel ChannelFrames
open DescriptorFlow
open ChannelSystem (willingHca)
open DescriptorPool (registeringTarget twoByteWrite)

/-- A channel, the FMRs that are mapped, and the commands whose list is DMA-mapped. -/
structure DmaCh where
  ch : SrpRdmaCh
  fmrs : List MrDesc := []
  dmaMapped : List ℕ := []

def DmaCh.setReq (s : DmaCh) (i : ℕ) (req : SrpRequest) : DmaCh :=
  { s with ch := s.ch.setReq i req }

section
variable (hca : Hca) (target : SrpTargetPort)

/-- The registration services of the channel; a mapped FMR is kept in the list. -/
def mrOps : MrOps DmaCh MrDesc where
  srpFrPoolGet s := ((srpFrPoolGet s.ch).1, { s with ch := (srpFrPoolGet s.ch).2 })
  ibPostSend s d :=
    ((ibPostSend hca (.fastReg d) s.ch).1, { s with ch := (ibPostSend hca (.fastReg d) s.ch).2 })
  ibFmrPoolMapPhys s pages :=
    let r := (Channel.mrOps hca).ibFmrPoolMapPhys s.ch pages
    (r.1, { s with ch := r.2, fmrs := s.fmrs++r.1.toList })

/-- `srp_map_data` for request slot `i`; `ib_dma_map_sg` leaves an empty list unmapped. -/
def srpMapData (scmnd : ScsiCmnd) (i : ℕ) (s : DmaCh) : Option CmdLayout × DmaCh :=
  match scmnd.sglist with
  | none => (some ⟨srpCmdSize, 1⟩, s)
  | some scat =>
      if scmnd.dataDirection = .none then (some ⟨srpCmdSize, 1⟩, s)
      else if scmnd.dataDirection = .bidirectional then (none, s)
      else if scat = [] then (none, s)
      else
        let s := { s with dmaMapped := scmnd.id::s.dmaMapped }
        if target.immediate scmnd scat then
          (some ⟨srpImmDataOutOffset, scat.length+1⟩,
            s.setReq i { s.ch.reqRing i with mrList := [] })
        else if scat.length = 1 ∧ target.registerAlways = false then
          (some ⟨srpCmdSize+srpDirectBufSize, 1⟩, s.setReq i { s.ch.reqRing i with mrList := [] })
        else
          match srpMapSg target.dev target.registerAlways target.hasPool (mrOps hca) scat s with
          | none => (none, s)
          | some (st, s) =>
              let s := s.setReq i { s.ch.reqRing i with mrList := st.mrList }
              if st.ndesc = 1 then (some ⟨srpCmdSize+srpDirectBufSize, 1⟩, s)
              else if target.cmdSgCnt < st.ndesc ∧ target.allowExtSg = false then (none, s)
              else (some ⟨srpCmdSize+srpIndirectBufSize+
                (min st.ndesc target.cmdSgCnt)*srpDirectBufSize, 1⟩, s)

def srpUnmapData (scmnd : ScsiCmnd) (i : ℕ) (s : DmaCh) : DmaCh :=
  if scmnd.hasData then
    let s :=
      if target.dev.useFastReg then { s with ch := Channel.srpUnmapData hca target scmnd i s.ch }
      else { s with fmrs := (s.ch.reqRing i).mrList.foldl List.erase s.fmrs }
    { s with dmaMapped := s.dmaMapped.erase scmnd.id }
  else s

/-- `srp_queuecommand`; there is no result when it takes a slot off an empty list. -/
def srpQueuecommand (readiness : Readiness) (scmnd : ScsiCmnd) (s : DmaCh) :
    Option (QueueResult × DmaCh) :=
  match readiness with
  | .failing => some (.completed, s)
  | .blocked => some (.hostBusy, s)
  | .ready =>
      match srpGetTxIu .cmd s.ch with
      | (none, ch) => some (.hostBusy, { s with ch := ch })
      | (some iu, ch) =>
          match ch.freeReqs with
          | [] => none
          | i::freeReqs =>
              match srpMapData hca target scmnd i
                { s with ch := srpTakeReq i freeReqs scmnd ch } with
              | (none, s) => some (.completed, { s with ch := srpQueuecommandError iu i s.ch })
              | (some layout, s) =>
                  match srpPostSend hca iu layout.numSge s.ch with
                  | (true, ch) => some (.sent i, { s with ch := ch })
                  | (false, ch) =>
                      let s := srpUnmapData hca target scmnd i { s with ch := ch }
                      some (.hostBusy, { s with ch := srpQueuecommandError iu i s.ch })

end

section
variable {hca : Hca} {target : SrpTargetPort}

theorem mrOps_ch (hca : Hca) : Transported DmaCh.ch (mrOps hca) (Channel.mrOps hca) := by
  constructor
  · exact fun _ => rfl
  · exact fun _ _ => rfl
  · exact fun _ _ => rfl

/-- Mapping data changes the channel as `Channel.srpMapData` does. -/
theorem srpMapData_ch (hca : Hca) (target : SrpTargetPort) (scmnd : ScsiCmnd) (i : ℕ) (s : DmaCh) :
    Channel.srpMapData hca target scmnd i s.ch =
      ((srpMapData hca target scmnd i s).1, (srpMapData hca target scmnd i s).2.ch) := by
  change _ = Prod.map id DmaCh.ch (srpMapData hca target scmnd i s)
  unfold srpMapData Channel.srpMapData
  cases scmnd.sglist with
  | none => rfl
  | some scat =>
      set s₁ : DmaCh := { s with dmaMapped := scmnd.id::s.dmaMapped }
      have hsg := (mrOps_ch hca).srpMapSg target.dev target.registerAlways target.hasPool scat s₁
      have hch : s₁.ch = s.ch := rfl
      rw [hch] at hsg
      simp only [hsg, apply_ite (Prod.map id DmaCh.ch)]
      refine ite_congr rfl (fun _ => rfl) fun _ => ?_
      refine ite_congr rfl (fun _ => rfl) fun _ => ?_
      refine ite_congr rfl (fun _ => rfl) fun _ => ?_
      refine ite_congr rfl (fun _ => rfl) fun _ => ?_
      refine ite_congr rfl (fun _ => rfl) fun _ => ?_
      cases srpMapSg target.dev target.registerAlways target.hasPool (mrOps hca) scat s₁ with
      | none => rfl
      | some p =>
          simp only [Option.map_some]
          split_ifs <;> rfl

theorem srpUnmapData_ch (hca : Hca) (target : SrpTargetPort) (scmnd : ScsiCmnd) (i : ℕ)
    (s : DmaCh) : (srpUnmapData hca target scmnd i s).ch =
      Channel.srpUnmapData hca target scmnd i s.ch := by
  unfold srpUnmapData
  cases hdata : scmnd.hasData <;> cases hfast : target.dev.useFastReg <;>
    simp [Channel.srpUnmapData, hdata, hfast]

/-- Queueing a command changes the channel as `Channel.srpQueuecommand` does. -/
theorem srpQueuecommand_ch (readiness : Readiness) (scmnd : ScsiCmnd) (s : DmaCh) :
    Channel.srpQueuecommand hca target readiness scmnd s.ch =
      (srpQueuecommand hca target readiness scmnd s).map fun p => (p.1, p.2.ch) := by
  cases readiness with
  | failing => rfl
  | blocked => rfl
  | ready =>
      simp only [srpQueuecommand, Channel.srpQueuecommand]
      obtain ⟨o, ch₁, hget⟩ : ∃ o ch₁, srpGetTxIu .cmd s.ch = (o, ch₁) := ⟨_, _, rfl⟩
      rw [hget]
      cases o with
      | none => rfl
      | some iu =>
          cases hfree : ch₁.freeReqs with
          | nil => simp [hfree]
          | cons i rest =>
              simp only [hfree]
              set s₁ : DmaCh := { s with ch := srpTakeReq i rest scmnd ch₁ }
              have hmap := srpMapData_ch hca target scmnd i s₁
              have hch : s₁.ch = srpTakeReq i rest scmnd ch₁ := rfl
              rw [hch] at hmap
              rw [hmap]
              obtain ⟨l, s₂, hl⟩ : ∃ l s₂, srpMapData hca target scmnd i s₁ = (l, s₂) :=
                ⟨_, _, rfl⟩
              rw [hl]
              cases l with
              | none => rfl
              | some layout =>
                  obtain ⟨ok, ch₃, hpost⟩ : ∃ ok ch₃, srpPostSend hca iu layout.numSge s₂.ch =
                    (ok, ch₃) := ⟨_, _, rfl⟩
                  simp only [hpost]
                  cases ok with
                  | true => rfl
                  | false => simp [srpUnmapData_ch]

end

section
variable (hca : Hca) (target : SrpTargetPort)

/-- What the registration attempts of a channel depend on: its pool and the numbers of
the next calls into the HCA driver. -/
def supply (ch : SrpRdmaCh) : MrPool × ℕ × ℕ := (ch.pool, ch.posts, ch.fmrMaps)

def supplyOps : MrOps (MrPool × ℕ × ℕ) MrDesc where
  srpFrPoolGet p :=
    match p.1.freeList with
    | [] => (none, p)
    | d::freeList => (some d, ({ p.1 with freeList := freeList }, p.2))
  ibPostSend p _ := (hca.postSend p.2.1, (p.1, p.2.1+1, p.2.2))
  ibFmrPoolMapPhys p _ :=
    ((hca.fmrPoolMapPhys p.2.2).map (MrDesc.mk p.1.id), (p.1, p.2.1, p.2.2+1))

/-- The number of descriptors of a list: one for each entry that is not empty, or what
`srp_map_sg` makes of the list with the registrations that the channel can get. -/
def descCount (scat : List Sg) (ch : SrpRdmaCh) : ℕ :=
  if target.hasPool then
    match srpMapSg target.dev target.registerAlways true (supplyOps hca) scat (supply ch) with
    | none => 0
    | some (st, _) => st.ndesc
  else scat.countP (fun sg => sg.dmaLen ≠ 0)

/-- The command carries data that is neither sent in the SRP_CMD nor described by one
descriptor, and there are more descriptors than an SRP_CMD without an external table
has room for. -/
def DoesNotFit (scmnd : ScsiCmnd) (ch : SrpRdmaCh) : Prop :=
  ∃ scat ∈ scmnd.sglist, scmnd.hasData = true ∧ scat ≠ [] ∧
    target.immediate scmnd scat = false ∧
    ¬ (scat.length = 1 ∧ target.registerAlways = false) ∧ descCount hca target scat ch ≠ 1 ∧
    target.cmdSgCnt < descCount hca target scat ch ∧ target.allowExtSg = false

/-- There is a transmit buffer and a credit for a command. -/
def Obtains (ch : SrpRdmaCh) : Prop := (srpSendCompletion ch).freeTx ≠ [] ∧ 1 < ch.reqLim.toInt

end

section
variable {hca : Hca} {target : SrpTargetPort} {s s' : DmaCh}

theorem mrOps_supply (hca : Hca) :
    Transported (fun s : DmaCh => supply s.ch) (mrOps hca) (supplyOps hca) := by
  constructor
  · intro s
    simp only [mrOps, supplyOps, supply, srpFrPoolGet]
    cases s.ch.pool.freeList <;> rfl
  · exact fun _ _ => rfl
  · exact fun _ _ => rfl

theorem descCount_of_srpMapSg {scat : List Sg} {st : MapState MrDesc}
    (h : srpMapSg target.dev target.registerAlways target.hasPool (mrOps hca) scat s =
      some (st, s')) : descCount hca target scat s.ch = st.ndesc := by
  cases hpool : target.hasPool with
  | false =>
      rw [hpool] at h
      simp only [descCount, hpool, Bool.false_eq_true, if_false]
      exact (srpMapSg_direct_ndesc h).symm
  | true =>
      have ht := (mrOps_supply hca).srpMapSg target.dev target.registerAlways true scat s
      rw [hpool] at h
      rw [h] at ht
      simp only [descCount, hpool, if_true, ht, Option.map_some]

/-- Without fast registration there is at most one descriptor for each entry. -/
theorem descCount_le_length (hslow : target.dev.useFastReg = false) (scat : List Sg)
    (ch : SrpRdmaCh) : descCount hca target scat ch ≤ scat.length := by
  unfold descCount
  split_ifs
  · obtain ⟨p, hp, hbounded⟩ := srpMapSg_bounded target.registerAlways (supplyOps hca)
      (Or.inl hslow) scat (supply ch)
    rw [hp]
    exact hbounded.ndesc_le
  · exact List.countP_le_length

theorem descCount_congr {ch ch' : SrpRdmaCh} (h : supply ch = supply ch') (scat : List Sg) :
    descCount hca target scat ch = descCount hca target scat ch' := by
  unfold descCount
  rw [h]

theorem doesNotFit_congr {ch ch' : SrpRdmaCh} (h : supply ch = supply ch') (scmnd : ScsiCmnd) :
    DoesNotFit hca target scmnd ch ↔ DoesNotFit hca target scmnd ch' := by
  unfold DoesNotFit
  simp only [descCount_congr h]

/-- The memory descriptors `descs` were taken: off the free list with fast registration,
and else by mapping FMRs. -/
structure Holds (fast : Bool) (descs : List MrDesc) (s s' : DmaCh) : Prop where
  free : s.ch.pool.freeList = (if fast then descs else [])++s'.ch.pool.freeList
  id : s'.ch.pool.id = s.ch.pool.id
  fmrs : s'.fmrs = s.fmrs++(if fast then [] else descs)
  dmaMapped : s'.dmaMapped = s.dmaMapped

theorem Holds.refl (fast : Bool) (s : DmaCh) : Holds fast [] s s := by
  constructor <;> simp

theorem Holds.trans {fast : Bool} {ds ds' : List MrDesc} {a b c : DmaCh} (h : Holds fast ds a b)
    (h' : Holds fast ds' b c) : Holds fast (ds++ds') a c := by
  constructor
  · rw [h.free, h'.free]
    cases fast <;> simp
  · rw [h'.id, h.id]
  · rw [h'.fmrs, h.fmrs]
    cases fast <;> simp
  · rw [h'.dmaMapped, h.dmaMapped]

theorem attempt_holds {fast : Bool} {pages : List ℕ} {o : Outcome} {d : Option MrDesc}
    (h : attempt (mrOps hca) fast s pages = (o, d, s')) : Holds fast d.toList s s' := by
  cases fast with
  | true =>
      simp only [attempt, mrOps, srpFrPoolGet, if_true] at h
      cases hfree : s.ch.pool.freeList with
      | nil =>
          rw [hfree] at h
          cases h
          exact .refl true s
      | cons d freeList =>
          rw [hfree] at h
          cases h
          constructor <;> simp [ibPostSend, hfree]
  | false =>
      simp only [attempt, mrOps, Channel.mrOps, Bool.false_eq_true, if_false] at h
      cases hmap : hca.fmrPoolMapPhys s.ch.fmrMaps with
      | none =>
          rw [hmap] at h
          cases h
          constructor <;> simp
      | some idx =>
          rw [hmap] at h
          cases h
          constructor <;> simp

theorem mapResult_holds {dev : SrpDevice} {scat : List Sg} {st : MapState MrDesc}
    (h : MapResult dev (mrOps hca) scat s (st, s')) : Holds dev.useFastReg st.mrList s s' :=
  mapResult_collects (Holds.refl _) Holds.trans attempt_holds h

/-- Everything `srp_map_data` can do. A list that does not fit stays DMA-mapped. -/
inductive MapsData (hca : Hca) (target : SrpTargetPort) (scmnd : ScsiCmnd) (i : ℕ) (s : DmaCh) :
    Option CmdLayout × DmaCh → Prop
  | noData {layout : CmdLayout} : scmnd.hasData = false → ¬ DoesNotFit hca target scmnd s.ch →
      MapsData hca target scmnd i s (some layout, s)
  | rejected : ¬ DoesNotFit hca target scmnd s.ch → MapsData hca target scmnd i s (none, s)
  | mapped {layout : CmdLayout} {s' : DmaCh} : scmnd.hasData = true →
      ¬ DoesNotFit hca target scmnd s.ch → Holds target.dev.useFastReg (s'.ch.reqRing i).mrList
        { s with dmaMapped := scmnd.id::s.dmaMapped } s' →
      MapsData hca target scmnd i s (some layout, s')
  | doesNotFit {s' : DmaCh} : DoesNotFit hca target scmnd s.ch →
      s'.dmaMapped = scmnd.id::s.dmaMapped → MapsData hca target scmnd i s (none, s')

theorem not_doesNotFit {scmnd : ScsiCmnd} {ch : SrpRdmaCh} (h : ∀ scat ∈ scmnd.sglist,
    scat = [] ∨ target.immediate scmnd scat = true ∨
      scat.length = 1 ∧ target.registerAlways = false ∨ descCount hca target scat ch = 1 ∨
      ¬ (target.cmdSgCnt < descCount hca target scat ch ∧ target.allowExtSg = false)) :
    ¬ DoesNotFit hca target scmnd ch := by
  rintro ⟨scat, hsg, _, hne, himm, hone, hcount, hlt, hext⟩
  have := h scat hsg
  simp_all

/-- Without fast registration a list fits that has no more entries than the SRP_CMD has room
for. -/
theorem not_doesNotFit_of_length {scmnd : ScsiCmnd} {ch : SrpRdmaCh}
    (hslow : target.dev.useFastReg = false)
    (hlen : ∀ scat ∈ scmnd.sglist, scat.length ≤ target.cmdSgCnt) :
    ¬ DoesNotFit hca target scmnd ch := by
  rintro ⟨scat, hsg, _, _, _, _, _, hlt, _⟩
  have hle : descCount hca target scat ch ≤ scat.length := descCount_le_length hslow scat ch
  have := hlen scat hsg
  omega

theorem not_doesNotFit_of_hasData {scmnd : ScsiCmnd} {ch : SrpRdmaCh}
    (h : scmnd.hasData = false) : ¬ DoesNotFit hca target scmnd ch := by
  rintro ⟨_, _, hdata, _⟩
  rw [h] at hdata
  cases hdata

theorem srpMapData_mapsData (hca : Hca) (target : SrpTargetPort) (scmnd : ScsiCmnd) (i : ℕ)
    (s : DmaCh) : MapsData hca target scmnd i s (srpMapData hca target scmnd i s) := by
  unfold srpMapData
  cases hsg : scmnd.sglist with
  | none =>
      have hdata : scmnd.hasData = false := by simp [ScsiCmnd.hasData, hsg]
      exact .noData hdata (not_doesNotFit_of_hasData hdata)
  | some scat =>
      set s₁ : DmaCh := { s with dmaMapped := scmnd.id::s.dmaMapped } with hs₁
      obtain ⟨⟨st, s₂⟩, hmap, hresult, _⟩ := srpMapSg_spec target.dev target.registerAlways
        target.hasPool (mrOps hca) s₁ (scmnd.len_lt scat hsg)
      have hholds := mapResult_holds hresult
      have hcount : descCount hca target scat s.ch = st.ndesc :=
        descCount_of_srpMapSg (s := s₁) hmap
      have hmrs : ((s₂.setReq i { s₂.ch.reqRing i with mrList := st.mrList }).ch.reqRing i).mrList =
          st.mrList := by
        simp [DmaCh.setReq, SrpRdmaCh.setReq]
      simp only [hmap]
      split_ifs with hnone hbidi hempty himm hone hdesc hmany
      · have hdata : scmnd.hasData = false := by simp [ScsiCmnd.hasData, hnone]
        exact .noData hdata (not_doesNotFit_of_hasData hdata)
      · have hdata : scmnd.hasData = false := by simp [ScsiCmnd.hasData, hbidi]
        exact .rejected (not_doesNotFit_of_hasData hdata)
      · apply MapsData.rejected
        apply not_doesNotFit
        simp [hsg, hempty]
      · apply MapsData.mapped (hasData_of_mapped hsg hnone hbidi)
        · apply not_doesNotFit
          simp [hsg, himm]
        · constructor <;> simp [DmaCh.setReq, SrpRdmaCh.setReq, hs₁]
      · apply MapsData.mapped (hasData_of_mapped hsg hnone hbidi)
        · apply not_doesNotFit
          simp [hsg, hone]
        · constructor <;> simp [DmaCh.setReq, SrpRdmaCh.setReq, hs₁]
      · apply MapsData.mapped (hasData_of_mapped hsg hnone hbidi)
        · apply not_doesNotFit
          simp [hsg, hcount, hdesc]
        · rw [hmrs]
          exact ⟨hholds.free, hholds.id, hholds.fmrs, hholds.dmaMapped⟩
      · apply MapsData.doesNotFit
        · refine ⟨scat, hsg, hasData_of_mapped hsg hnone hbidi, hempty, ?_, hone, ?_⟩
          · exact Bool.not_eq_true _ ▸ himm
          · rw [hcount]
            exact ⟨hdesc, hmany⟩
        · exact hholds.dmaMapped
      · apply MapsData.mapped (hasData_of_mapped hsg hnone hbidi)
        · apply not_doesNotFit
          simp only [hsg, Option.mem_some_iff, forall_eq', hcount]
          exact Or.inr (Or.inr (Or.inr (Or.inr hmany)))
        · rw [hmrs]
          exact ⟨hholds.free, hholds.id, hholds.fmrs, hholds.dmaMapped⟩

end

/-- The channel with its send completions harvested, which only a call that gets as far
as asking for a transmit buffer does. -/
def harvested (readiness : Readiness) (ch : SrpRdmaCh) : SrpRdmaCh :=
  if readiness = .ready then srpSendCompletion ch else ch

def reqTaken (readiness : Readiness) (ch : SrpRdmaCh) : Option ℕ :=
  if readiness = .ready ∧ (srpGetTxIu .cmd ch).1.isSome then ch.freeReqs.head? else none

/-- Up to harvested completions and the order of its lists the channel is as before: the
request limit, the buffers, the slots, the memory descriptors and the DMA mappings. -/
structure NoTrace (readiness : Readiness) (s s' : DmaCh) : Prop where
  reqLim : s'.ch.reqLim = s.ch.reqLim
  freeTx : s'.ch.freeTx.Perm (harvested readiness s.ch).freeTx
  freeReqs : s'.ch.freeReqs.Perm s.ch.freeReqs
  request : ∀ i, reqTaken readiness s.ch = some i → (s'.ch.reqRing i).scmnd = none
  others : ∀ i, reqTaken readiness s.ch ≠ some i → s'.ch.reqRing i = s.ch.reqRing i
  poolId : s'.ch.pool.id = s.ch.pool.id
  pool : s'.ch.pool.freeList.Perm s.ch.pool.freeList
  fmrs : s'.fmrs.Perm s.fmrs
  dmaMapped : s'.dmaMapped.Perm s.dmaMapped

/-- Between taking slot `i` and giving it back. -/
structure Kept (i : ℕ) (ch ch' : SrpRdmaCh) : Prop where
  reqLim : ch'.reqLim = ch.reqLim
  freeTx : ch'.freeTx = ch.freeTx
  freeReqs : ch'.freeReqs = ch.freeReqs
  others : ∀ j, j ≠ i → ch'.reqRing j = ch.reqRing j

section
variable {hca : Hca} {target : SrpTargetPort} {i iu : ℕ} {ch ch₁ ch₂ : SrpRdmaCh}

theorem Kept.trans {a b c : SrpRdmaCh} (h : Kept i a b) (h' : Kept i b c) : Kept i a c := by
  constructor
  · rw [h'.reqLim, h.reqLim]
  · rw [h'.freeTx, h.freeTx]
  · rw [h'.freeReqs, h.freeReqs]
  · intro j hj
    rw [h'.others j hj, h.others j hj]

theorem kept_of_mappingOnly (i : ℕ) (h : MappingOnly ch ch₁) : Kept i ch ch₁ := by
  obtain ⟨_, _, _, _, rfl⟩ := h
  exact ⟨rfl, rfl, rfl, fun _ _ => rfl⟩

theorem kept_of_slotMapped (h : SlotMapped i ch ch₁) : Kept i ch ch₁ := by
  obtain ⟨ch₂, mrList, hmap, rfl | rfl⟩ := h
  · exact kept_of_mappingOnly i hmap
  · apply (kept_of_mappingOnly i hmap).trans
    constructor
    · rfl
    · rfl
    · rfl
    · exact fun j hj => Function.update_of_ne hj _ _

theorem kept_srpUnmapData (hca : Hca) (target : SrpTargetPort) (scmnd : ScsiCmnd) (i : ℕ)
    (ch : SrpRdmaCh) : Kept i ch (Channel.srpUnmapData hca target scmnd i ch) := by
  obtain ⟨touched, h⟩ := srpUnmapData_frame hca target scmnd i ch
  obtain ⟨_, _, _, _, he⟩ := h
  rw [he]
  exact ⟨rfl, rfl, rfl, fun _ _ => rfl⟩

theorem obtains_of_some (h : srpGetTxIu .cmd ch = (some iu, ch₁)) :
    Obtains ch ∧ ∃ freeTx, (srpSendCompletion ch).freeTx = iu::freeTx ∧
      ch₁ = { srpSendCompletion ch with freeTx := freeTx, reqLim := ch.reqLim-1 } := by
  simp only [srpGetTxIu] at h
  cases hfree : (srpSendCompletion ch).freeTx with
  | nil => simp [hfree] at h
  | cons iu' freeTx =>
      have hlim : (srpSendCompletion ch).reqLim = ch.reqLim := rfl
      simp only [hfree, hlim, reduceCtorEq, if_false, srpTskMgmtSqSize] at h
      split_ifs at h with hle
      · cases h
      · cases h
        constructor
        · constructor
          · rw [hfree]
            exact List.cons_ne_nil _ _
          · exact not_le.mp hle
        · exact ⟨freeTx, rfl, rfl⟩

theorem not_obtains_of_none (h : srpGetTxIu .cmd ch = (none, ch₁)) :
    ¬ Obtains ch ∧ ch₁ = srpSendCompletion ch := by
  simp only [srpGetTxIu] at h
  cases hfree : (srpSendCompletion ch).freeTx with
  | nil =>
      rw [hfree] at h
      cases h
      exact ⟨fun ho => ho.1 hfree, rfl⟩
  | cons iu freeTx =>
      have hlim : (srpSendCompletion ch).reqLim = ch.reqLim := rfl
      simp only [hfree, hlim, reduceCtorEq, if_false, srpTskMgmtSqSize] at h
      split_ifs at h with hle
      · cases h
        exact ⟨fun ho => absurd ho.2 (not_lt.mpr hle), rfl⟩
      · cases h

end

section
variable {hca : Hca} {target : SrpTargetPort} {scmnd : ScsiCmnd} {i iu : ℕ} {rest : List ℕ}
variable {s s' : DmaCh} {ch₁ : SrpRdmaCh}

theorem noTrace_error (hget : srpGetTxIu .cmd s.ch = (some iu, ch₁))
    (hfree : ch₁.freeReqs = i::rest) (hkept : Kept i (srpTakeReq i rest scmnd ch₁) s'.ch)
    (hid : s'.ch.pool.id = s.ch.pool.id) (hpool : s'.ch.pool.freeList.Perm s.ch.pool.freeList)
    (hfmrs : s'.fmrs.Perm s.fmrs) (hdma : s'.dmaMapped.Perm s.dmaMapped) :
    NoTrace .ready s { s' with ch := srpQueuecommandError iu i s'.ch } := by
  obtain ⟨_, freeTx, htx, rfl⟩ := obtains_of_some hget
  have hreqs : s.ch.freeReqs = i::rest := hfree
  have htaken : reqTaken .ready s.ch = some i := by
    simp [reqTaken, hget, hreqs]
  constructor
  · change s'.ch.reqLim+1 = s.ch.reqLim
    rw [hkept.reqLim]
    exact BitVec.sub_add_cancel _ _
  · change (iu::s'.ch.freeTx).Perm (srpSendCompletion s.ch).freeTx
    rw [hkept.freeTx, htx]
    exact List.Perm.refl _
  · change (i::s'.ch.freeReqs).Perm s.ch.freeReqs
    rw [hkept.freeReqs, hreqs]
    exact List.Perm.refl _
  · intro j hj
    rw [htaken] at hj
    cases hj
    simp [srpQueuecommandError, SrpRdmaCh.setReq]
  · intro j hj
    rw [htaken] at hj
    have hne : j ≠ i := fun he => hj (congrArg some he.symm)
    have hring : (srpQueuecommandError iu i s'.ch).reqRing j = s'.ch.reqRing j :=
      Function.update_of_ne hne _ _
    rw [hring, hkept.others j hne]
    exact Function.update_of_ne hne _ _
  · exact hid
  · exact hpool
  · exact hfmrs
  · exact hdma

theorem foldl_erase_perm {α : Type} [DecidableEq α] {l m : List α} (descs : List α)
    (h : l.Perm (m++descs)) : (descs.foldl List.erase l).Perm m := by
  induction descs generalizing l with
  | nil => rwa [List.append_nil] at h
  | cons d descs ih =>
      apply ih
      have hfront := h.trans List.perm_middle
      have herase := hfront.erase d
      rwa [List.erase_cons_head] at herase

/-- What was taken for the slot is put back when its data is unmapped. -/
theorem unmapped_restores (hca : Hca) (s s' : DmaCh) (hdata : scmnd.hasData = true)
    (h : Holds target.dev.useFastReg (s'.ch.reqRing i).mrList
      { s with dmaMapped := scmnd.id::s.dmaMapped } s') :
    let s'' := srpUnmapData hca target scmnd i s'
    s''.ch.pool.id = s.ch.pool.id ∧ s''.ch.pool.freeList.Perm s.ch.pool.freeList ∧
      s''.fmrs.Perm s.fmrs ∧ s''.dmaMapped = s.dmaMapped := by
  intro s''
  have hdma : s'.dmaMapped.erase scmnd.id = s.dmaMapped := by
    rw [h.dmaMapped]
    exact List.erase_cons_head _ _
  cases hfast : target.dev.useFastReg with
  | true =>
      have hput : PutBack (heldBy s'.ch i scmnd) s'.ch
          (Channel.srpUnmapData hca target scmnd i s'.ch) :=
        srpUnmapData_putBack hfast scmnd i s'.ch
      rw [heldBy, if_pos hdata] at hput
      have he : s'' = { s' with
          ch := Channel.srpUnmapData hca target scmnd i s'.ch, dmaMapped := s.dmaMapped } := by
        simp [s'', srpUnmapData, hdata, hfast, hdma]
      have hfree := h.free
      have hfmrs := h.fmrs
      rw [hfast] at hfree hfmrs
      rw [he]
      refine ⟨hput.id.trans h.id, ?_, ?_, rfl⟩
      · rw [hput.free]
        exact ((List.reverse_perm _).append_right _).trans (List.Perm.of_eq hfree.symm)
      · simp [hfmrs]
  | false =>
      have he : s'' = { s' with
          fmrs := (s'.ch.reqRing i).mrList.foldl List.erase s'.fmrs,
          dmaMapped := s.dmaMapped } := by
        simp [s'', srpUnmapData, hdata, hfast, hdma]
      have hfree := h.free
      have hfmrs := h.fmrs
      rw [hfast] at hfree hfmrs
      rw [he]
      refine ⟨h.id, ?_, ?_, rfl⟩
      · exact List.Perm.of_eq hfree.symm
      · exact foldl_erase_perm _ (List.Perm.of_eq hfmrs)

/-- The label `err_unmap` gives back what was mapped, and the labels below it the rest. -/
theorem noTrace_postFailed {s₁ s₂ : DmaCh} {layout : CmdLayout} {ch₃ : SrpRdmaCh}
    (hget : srpGetTxIu .cmd s.ch = (some iu, ch₁)) (hfree : ch₁.freeReqs = i::rest)
    (hs₁ : s₁ = { s with ch := srpTakeReq i rest scmnd ch₁ }) (hkept : Kept i s₁.ch s₂.ch)
    (hmaps : MapsData hca target scmnd i s₁ (some layout, s₂))
    (hpost : srpPostSend hca iu layout.numSge s₂.ch = (false, ch₃)) :
    let s₃ := srpUnmapData hca target scmnd i { s₂ with ch := ch₃ }
    NoTrace .ready s { s₃ with ch := srpQueuecommandError iu i s₃.ch } := by
  intro s₃
  obtain ⟨_, freeTx, _, hch₁⟩ := obtains_of_some hget
  obtain ⟨posts, sq, hframe, _⟩ := srpPostSend_frame hca iu layout.numSge s₂.ch
  rw [hpost] at hframe
  have hpool₃ : ch₃.pool = s₂.ch.pool := by
    simpa using congrArg SrpRdmaCh.pool hframe
  have hring₃ : ch₃.reqRing = s₂.ch.reqRing := by
    simpa using congrArg SrpRdmaCh.reqRing hframe
  have hpool₁ : s₁.ch.pool = s.ch.pool := by
    rw [hs₁, hch₁]
    rfl
  have hkept₃ : Kept i s₁.ch s₃.ch := by
    apply hkept.trans
    rw [srpUnmapData_ch]
    have hposted := mappingOnly_srpPostSend hca iu layout.numSge s₂.ch
    rw [hpost] at hposted
    exact (kept_of_mappingOnly i hposted).trans (kept_srpUnmapData hca target scmnd i ch₃)
  rw [hs₁] at hkept₃
  cases hmaps with
  | noData hdata _ =>
      have hs₃ : s₃ = { s₁ with ch := ch₃ } := by
        simp [s₃, srpUnmapData, hdata]
      apply noTrace_error hget hfree hkept₃
      · rw [hs₃, hpool₃, hpool₁]
      · rw [hs₃, hpool₃, hpool₁]
      · rw [hs₃, hs₁]
      · rw [hs₃, hs₁]
  | mapped hdata _ hholds =>
      have hholds₃ : Holds target.dev.useFastReg (ch₃.reqRing i).mrList
          { s₁ with dmaMapped := scmnd.id::s₁.dmaMapped } { s₂ with ch := ch₃ } := by
        rw [hring₃]
        exact ⟨by rw [hpool₃]; exact hholds.free, by rw [hpool₃]; exact hholds.id, hholds.fmrs,
          hholds.dmaMapped⟩
      obtain ⟨hid, hpool, hfmrs, hdma⟩ :=
        unmapped_restores hca s₁ { s₂ with ch := ch₃ } hdata hholds₃
      apply noTrace_error hget hfree hkept₃
      · rw [← hpool₁]
        exact hid
      · rw [← hpool₁]
        exact hpool
      · rw [hs₁] at hfmrs
        exact hfmrs
      · rw [hs₁] at hdma
        exact List.Perm.of_eq hdma

/-- A list that was refused has been mapped if it was refused for its length. -/
theorem noTrace_mapFailed {s₁ s₂ : DmaCh} (hget : srpGetTxIu .cmd s.ch = (some iu, ch₁))
    (hfree : ch₁.freeReqs = i::rest) (hs₁ : s₁ = { s with ch := srpTakeReq i rest scmnd ch₁ })
    (hkept : Kept i s₁.ch s₂.ch) (hmaps : MapsData hca target scmnd i s₁ (none, s₂)) :
    NoTrace .ready s { s₂ with ch := srpQueuecommandError iu i s₂.ch } ↔
      ¬ DoesNotFit hca target scmnd s₁.ch := by
  obtain ⟨_, freeTx, _, hch₁⟩ := obtains_of_some hget
  have hpool₁ : s₁.ch.pool = s.ch.pool := by
    rw [hs₁, hch₁]
    rfl
  have htaken : Kept i (srpTakeReq i rest scmnd ch₁) s₂.ch := by
    have hch : s₁.ch = srpTakeReq i rest scmnd ch₁ := by rw [hs₁]
    rwa [hch] at hkept
  cases hmaps with
  | rejected hfit =>
      simp only [hfit, not_false_eq_true, iff_true]
      apply noTrace_error hget hfree htaken
      · rw [hpool₁]
      · rw [hpool₁]
      · rw [hs₁]
      · rw [hs₁]
  | doesNotFit hfit hdma =>
      simp only [hfit, not_true_eq_false, iff_false]
      intro hno
      have hlen := hno.dmaMapped.length_eq
      rw [hdma, hs₁] at hlen
      exact absurd hlen (Nat.succ_ne_self _)

/-- A command that was not sent leaves no trace unless its list was mapped and then found
not to fit in the SRP_CMD. -/
theorem unsent_leaves_no_trace (hca : Hca) (target : SrpTargetPort) (readiness : Readiness)
    (scmnd : ScsiCmnd) (s s' : DmaCh) (r : QueueResult)
    (h : srpQueuecommand hca target readiness scmnd s = some (r, s')) (hr : ∀ i, r ≠ .sent i) :
    NoTrace readiness s s' ↔
      ¬ (readiness = .ready ∧ Obtains s.ch ∧ DoesNotFit hca target scmnd s.ch) := by
  cases readiness with
  | failing =>
      cases h
      simp only [reduceCtorEq, false_and, not_false_eq_true, iff_true]
      constructor <;> simp [harvested, reqTaken]
  | blocked =>
      cases h
      simp only [reduceCtorEq, false_and, not_false_eq_true, iff_true]
      constructor <;> simp [harvested, reqTaken]
  | ready =>
      simp only [srpQueuecommand] at h
      obtain ⟨o, ch₁, hget⟩ : ∃ o ch₁, srpGetTxIu .cmd s.ch = (o, ch₁) := ⟨_, _, rfl⟩
      rw [hget] at h
      cases o with
      | none =>
          obtain ⟨hno, rfl⟩ := not_obtains_of_none hget
          cases h
          simp only [hno, false_and, and_false, not_false_eq_true, iff_true]
          constructor <;> simp [harvested, reqTaken, hget, srpSendCompletion]
      | some iu =>
          cases hfree : ch₁.freeReqs with
          | nil => simp [hfree] at h
          | cons i rest =>
              simp only [hfree] at h
              obtain ⟨hobtains, freeTx, _, hch₁⟩ := obtains_of_some hget
              set s₁ : DmaCh := { s with ch := srpTakeReq i rest scmnd ch₁ } with hs₁
              have hsupply : supply s₁.ch = supply s.ch := by
                rw [hs₁, hch₁]
                rfl
              have hkept := kept_of_slotMapped
                (srpMapData_frame hca target (srpMapData_ch hca target scmnd i s₁))
              have hmaps := srpMapData_mapsData hca target scmnd i s₁
              simp only [hobtains, true_and, ← doesNotFit_congr hsupply]
              obtain ⟨l, s₂, hl⟩ : ∃ l s₂, srpMapData hca target scmnd i s₁ = (l, s₂) :=
                ⟨_, _, rfl⟩
              rw [hl] at h hkept hmaps
              cases l with
              | none =>
                  cases h
                  exact noTrace_mapFailed hget hfree hs₁ hkept hmaps
              | some layout =>
                  obtain ⟨ok, ch₃, hpost⟩ : ∃ ok ch₃, srpPostSend hca iu layout.numSge s₂.ch =
                    (ok, ch₃) := ⟨_, _, rfl⟩
                  simp only [hpost] at h
                  cases ok with
                  | true =>
                      cases h
                      exact absurd rfl (hr i)
                  | false =>
                      cases h
                      have hfit : ¬ DoesNotFit hca target scmnd s₁.ch := by
                        cases hmaps with
                        | noData _ hfit => exact hfit
                        | mapped _ hfit _ => exact hfit
                      simp only [hfit, not_false_eq_true, iff_true]
                      exact noTrace_postFailed hget hfree hs₁ hkept hmaps hpost

end

def refusingHca : Hca where
  postSend n := n ≠ 1
  fmrPoolMapPhys _ := none

theorem unsent_leaves_no_trace_send_refused :
    ∃ s', srpQueuecommand refusingHca registeringTarget .ready (twoByteWrite 0)
        ⟨SrpRdmaCh.login registeringTarget 4, [], []⟩ = some (.hostBusy, s') ∧
      NoTrace .ready ⟨SrpRdmaCh.login registeringTarget 4, [], []⟩ s' := by
  obtain ⟨s', hq⟩ : ∃ s', srpQueuecommand refusingHca registeringTarget .ready (twoByteWrite 0)
      ⟨SrpRdmaCh.login registeringTarget 4, [], []⟩ = some (.hostBusy, s') := ⟨_, rfl⟩
  refine ⟨s', hq, (unsent_leaves_no_trace _ _ _ _ _ _ _ hq (by simp)).mpr ?_⟩
  rintro ⟨_, _, scat, hsg, _, _, _, _, hcount, _⟩
  cases hsg
  exact hcount (by decide)

/-- A target whose SRP_CMD has room for one descriptor. -/
def oneDescTarget : SrpTargetPort :=
  { dev := twoPageDevice, hasPool := true, registerAlways := true, cmdSgCnt := 1, canQueue := 2,
    queueSize := 4 }

theorem unaligned_lt : ∀ scat ∈ some [Sg.of 4095 8192], sgLen scat < 2^32 := by decide

/-- One entry that is as long as a region and does not start a page. -/
def twoRegionWrite : ScsiCmnd :=
  { id := 7, dataDirection := .toDevice, bufflen := 8192,
    sglist := some [.of 4095 8192], len_lt := unaligned_lt }

/-- Both descriptors of the pool are lost and the list stays DMA-mapped. -/
theorem unsent_leaves_mapping :
    ∃ s', srpQueuecommand willingHca oneDescTarget .ready twoRegionWrite
        ⟨SrpRdmaCh.login oneDescTarget 4, [], []⟩ = some (.completed, s') ∧
      (SrpRdmaCh.login oneDescTarget 4).pool.freeList = [⟨0, 0⟩, ⟨0, 1⟩] ∧
      s'.ch.pool.freeList = [] ∧ s'.dmaMapped = [7] ∧
      ¬ NoTrace .ready ⟨SrpRdmaCh.login oneDescTarget 4, [], []⟩ s' := by
  refine ⟨_, rfl, rfl, rfl, rfl, ?_⟩
  intro h
  exact absurd h.dmaMapped.length_eq (by decide)

end IbSrp.CommandUnwind
