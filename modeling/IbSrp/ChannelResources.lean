import IbSrp.ChannelObjects

/-!
# All that a channel is made of

Next to its verbs objects a channel has a CM ID, a request ring and two rings of
information units. They are allocated by different functions: `srp_new_cm_id` and
`srp_alloc_req_data` when the channel is set up, and `srp_alloc_iu_bufs` from a
callback of the connection manager during the login. `srp_free_ch_ib` and
`srp_free_req_data` tell from the pointers how far a channel has come, and release
what is there.

A ring is an array that is zero at first; here it is the list of its entries that are
not. The DMA mapping of the descriptors of a request has the address zero if there is
none; a mapping is taken to have another address. That a pool pointer is left behind
after the pool is gone is part of the model: a channel without a queue pair has no pool,
whatever the pointer says.
-/
namespace IbSrp.ChannelResources
open ObjectLedger ChannelObjects

/-- The members of a request that are allocated for it. -/
structure Request where
  mrList : Option Object := none
  mapPage : Option Object := none
  indirectDesc : Option Object := none
  indirectDma : Option Object := none

structure ReqRing where
  mem : Object
  reqs : List Request := []

/-- `struct srp_iu` -/
structure Iu where
  iu : Object
  buf : Object
  dma : Object

structure IuRing where
  mem : Object
  ius : List Iu := []

/-- `struct srp_rdma_ch`; `target` is whether its pointer to the target is set. -/
structure Channel (r : Registration) where
  target : Bool := false
  cmId : Option Object := none
  verbs : Ch r := {}
  reqRing : Option ReqRing := none
  rxRing : Option IuRing := none
  txRing : Option IuRing := none

/-- How far the allocations for a request get. -/
inductive RequestCall where
  | ok | noMrList | noMapPage | noIndirectDesc | noMapping
deriving DecidableEq, Repr

/-- How far `srp_alloc_iu` gets. -/
inductive IuCall where
  | ok | noIu | noBuf | noMapping
deriving DecidableEq, Repr

/-- The results of the calls within `srp_alloc_iu_bufs`. -/
structure IuCalls where
  allocRxRing : Bool
  allocTxRing : Bool
  rxIu : ℕ → IuCall
  txIu : ℕ → IuCall

/-- The results of the calls for one channel. `resolveAddr` is the first error among
`rdma_resolve_addr`, the wait for it and its status. `rep` is there if the connection manager
delivers a login response that leads to the allocation of the rings. -/
structure ChCalls where
  createCmId : ℤ
  resolveAddr : ℤ
  canQueue : ℤ
  verbs : Calls
  allocReqRing : Bool
  request : ℕ → RequestCall
  rep : Option IuCalls
  connect : ℤ

/-- What a function leaves that changes a channel. -/
structure Step (r : Registration) where
  ret : ℤ
  ch : Channel r
  objects : Objects

section
variable {r : Registration}

def srpNewIbCmId (calls : ChCalls) (ch : Channel r) (l : Objects) : Step r :=
  if calls.createCmId ≠ 0 then ⟨calls.createCmId, ch, l⟩
  else ⟨0, { ch with cmId := some (l.fresh .cmId) }, (l.create .cmId).destroy ch.cmId.toList⟩

def srpNewRdmaCmId (calls : ChCalls) (ch : Channel r) (l : Objects) : Step r :=
  if calls.createCmId ≠ 0 then ⟨calls.createCmId, ch, l⟩
  else if calls.resolveAddr ≠ 0 then
    ⟨calls.resolveAddr, ch, (l.create .cmId).destroy [l.fresh .cmId]⟩
  else
    ⟨0, { ch with cmId := some (l.fresh .cmId), verbs := { ch.verbs with cmQp := none } },
      (l.create .cmId).destroy ch.cmId.toList⟩

def srpNewCmId (usingRdmaCm : Bool) (calls : ChCalls) (ch : Channel r) (l : Objects) : Step r :=
  if usingRdmaCm then srpNewRdmaCmId calls ch l else srpNewIbCmId calls ch l

/-- The allocations for one request, and whether all of them succeeded. -/
def allocRequest (call : RequestCall) (l : Objects) : Bool × Request × Objects :=
  let mrList := l.fresh .mrList
  let l₁ := l.create .mrList
  let mapPage := l₁.fresh .mapPage
  let l₂ := l₁.create .mapPage
  let indirectDesc := l₂.fresh .indirectDesc
  let l₃ := l₂.create .indirectDesc
  match call with
  | .noMrList => (false, {}, l)
  | .noMapPage => (false, { mrList := mrList }, l₁)
  | .noIndirectDesc => (false, { mrList := mrList, mapPage := mapPage }, l₂)
  | .noMapping =>
      (false, { mrList := mrList, mapPage := mapPage, indirectDesc := indirectDesc }, l₃)
  | .ok =>
      (true, { mrList := mrList, mapPage := mapPage, indirectDesc := indirectDesc,
               indirectDma := l₃.fresh .dmaMap }, l₃.create .dmaMap)

/-- The loop of `srp_alloc_req_data` with `n` requests to go. -/
def fillReqRing (request : ℕ → RequestCall) : ℕ → ReqRing → Objects → Bool × ReqRing × Objects
  | 0, ring, l => (true, ring, l)
  | n+1, ring, l =>
      let p := allocRequest (request ring.reqs.length) l
      let ring := { ring with reqs := ring.reqs++[p.2.1] }
      if p.1 then fillReqRing request n ring p.2.2 else (false, ring, p.2.2)

def srpAllocReqData (reqRingSize : ℕ) (calls : ChCalls) (ch : Channel r) (l : Objects) :
    Step r :=
  if !calls.allocReqRing then ⟨-enomem, { ch with reqRing := none }, l⟩
  else
    let p := fillReqRing calls.request reqRingSize { mem := l.fresh .reqRing } (l.create .reqRing)
    ⟨if p.1 then 0 else -enomem, { ch with reqRing := some p.2.1 }, p.2.2⟩

/-- The body of the loop of `srp_free_req_data` -/
def Request.objects (req : Request) : List Object :=
  req.mrList.toList++(req.mapPage.toList++(req.indirectDma.toList++req.indirectDesc.toList))

def ReqRing.objects (ring : ReqRing) : List Object :=
  ring.reqs.flatMap Request.objects++[ring.mem]

def srpFreeReqData (ch : Channel r) (l : Objects) : Channel r × Objects :=
  match ch.reqRing with
  | none => (ch, l)
  | some ring => ({ ch with reqRing := none }, l.destroy ring.objects)

def srpAllocIu (call : IuCall) (l : Objects) : Option Iu × Objects :=
  let iu := l.fresh .iu
  let l₁ := l.create .iu
  let buf := l₁.fresh .iuBuf
  let l₂ := l₁.create .iuBuf
  match call with
  | .noIu => (none, l)
  | .noBuf => (none, l₁.destroy [iu])
  | .noMapping => (none, (l₂.destroy [buf]).destroy [iu])
  | .ok => (some ⟨iu, buf, l₂.fresh .dmaMap⟩, l₂.create .dmaMap)

def Iu.objects (iu : Iu) : List Object := [iu.dma, iu.buf, iu.iu]

/-- A loop of `srp_alloc_iu_bufs` with `n` entries to go. -/
def fillIuRing (call : ℕ → IuCall) : ℕ → IuRing → Objects → Bool × IuRing × Objects
  | 0, ring, l => (true, ring, l)
  | n+1, ring, l =>
      match srpAllocIu (call ring.ius.length) l with
      | (none, l) => (false, ring, l)
      | (some iu, l) => fillIuRing call n { ring with ius := ring.ius++[iu] } l

/-- The rings that the two loops of `srp_alloc_iu_bufs` leave. -/
structure Rings where
  ok : Bool
  rx : IuRing
  tx : IuRing
  objects : Objects

def fillRings (queueSize : ℕ) (calls : IuCalls) (rxMem txMem : Object) (l : Objects) : Rings :=
  let rx := fillIuRing calls.rxIu queueSize { mem := rxMem } l
  if rx.1 then
    let tx := fillIuRing calls.txIu queueSize { mem := txMem } rx.2.2
    ⟨tx.1, rx.2.1, tx.2.1, tx.2.2⟩
  else ⟨false, rx.2.1, { mem := txMem }, rx.2.2⟩

/-- The loop at the label `err`, which frees the two rings entry by entry. -/
def freeEntries : List Iu → List Iu → List Object
  | [], tx => tx.flatMap Iu.objects
  | iu::rx, [] => iu.objects++rx.flatMap Iu.objects
  | iu::rx, iu'::tx => iu.objects++(iu'.objects++freeEntries rx tx)

def srpAllocIuBufs (queueSize : ℕ) (calls : IuCalls) (ch : Channel r) (l : Objects) : Step r :=
  if !calls.allocRxRing then
    ⟨-enomem, { ch with rxRing := none, txRing := none },
      l.destroy (ch.txRing.toList.map IuRing.mem)⟩
  else
    let rxMem := l.fresh .iuRing
    let l := l.create .iuRing
    if !calls.allocTxRing then
      ⟨-enomem, { ch with rxRing := none, txRing := none }, l.destroy [rxMem]⟩
    else
      let txMem := l.fresh .iuRing
      let l := l.create .iuRing
      let p := fillRings queueSize calls rxMem txMem l
      if p.ok then ⟨0, { ch with rxRing := some p.rx, txRing := some p.tx }, p.objects⟩
      else
        let l := p.objects.destroy (freeEntries p.rx.ius p.tx.ius)
        ⟨-enomem, { ch with rxRing := none, txRing := none },
          (l.destroy [p.tx.mem]).destroy [p.rx.mem]⟩

/-- `srp_connect_ch` with the callback: `srp_cm_rep_handler` allocates the rings if there are
none. -/
def srpConnectCh (queueSize : ℕ) (calls : ChCalls) (ch : Channel r) (l : Objects) : Step r :=
  match calls.rep, ch.rxRing with
  | some rep, none =>
      let p := srpAllocIuBufs queueSize rep ch l
      ⟨calls.connect, p.ch, p.objects⟩
  | _, _ => ⟨calls.connect, ch, l⟩

def IuRing.objects (ring : IuRing) : List Object := ring.ius.flatMap Iu.objects++[ring.mem]

def ringObjects : Option IuRing → List Object
  | none => []
  | some ring => ring.objects

def srpFreeChIb (ch : Channel r) (l : Objects) : Channel r × Objects :=
  if !ch.target then (ch, l)
  else
    let l := l.destroy ch.cmId.toList
    let ch := { ch with cmId := none }
    match ch.verbs.qp with
    | none => (ch, l)
    | some qp =>
        let l :=
          match ch.verbs.pool with
          | none => l
          | some pool => destroyPool r pool l
        let l := ((l.destroy [qp]).destroy ch.verbs.sendCq.toList).destroy ch.verbs.recvCq.toList
        ({ ch with
            target := false
            verbs := { ch.verbs with qp := none, sendCq := none, recvCq := none }
            rxRing := none
            txRing := none },
          (l.destroy (ringObjects ch.rxRing)).destroy (ringObjects ch.txRing))

def reqObjects : Option ReqRing → List Object
  | none => []
  | some ring => ring.objects

/-- The verbs objects of a channel; the pointer to the pool counts only next to a queue pair. -/
def verbsOwned (v : Verbs r) : List Object := if v.qp.isSome then v.owned else []

/-- What `srp_free_ch_ib` has to release. -/
def Channel.ibOwned (ch : Channel r) : List Object :=
  ch.cmId.toList++(verbsOwned ch.verbs.toVerbs++(ringObjects ch.rxRing++ringObjects ch.txRing))

def Channel.owned (ch : Channel r) : List Object := ch.ibOwned++reqObjects ch.reqRing

/-- What the pointers of a channel tell: without a target pointer there is nothing for
`srp_free_ch_ib` to release, and without a queue pair there are no rings. -/
structure Channel.Sound (ch : Channel r) : Prop where
  blank : ch.target = false → ch.ibOwned = []
  rings : ch.verbs.qp = none → ch.rxRing = none ∧ ch.txRing = none

theorem srpNewCmId_exchange (usingRdmaCm : Bool) (calls : ChCalls) (ch : Channel r)
    (l : Objects) :
    Exchange l ch.cmId.toList (srpNewCmId usingRdmaCm calls ch l).objects
      (srpNewCmId usingRdmaCm calls ch l).ch.cmId.toList := by
  have hnew : Exchange l ch.cmId.toList ((l.create .cmId).destroy ch.cmId.toList)
      [l.fresh .cmId] := by
    have hcreate := (Exchange.create l .cmId).frame ch.cmId.toList
    exact hcreate.trans ((Exchange.destroy _ ch.cmId.toList).frameLeft [l.fresh .cmId])
  have hundone : Exchange l ch.cmId.toList ((l.create .cmId).destroy [l.fresh .cmId])
      ch.cmId.toList :=
    ((Exchange.create l .cmId).trans (.destroy _ _)).frame _
  cases usingRdmaCm with
  | true =>
      simp only [srpNewCmId, if_true, srpNewRdmaCmId]
      split_ifs
      · exact .refl l _
      · exact hundone
      · exact hnew
  | false =>
      simp only [srpNewCmId, Bool.false_eq_true, if_false, srpNewIbCmId]
      split_ifs
      · exact .refl l _
      · exact hnew

theorem allocRequest_exchange (call : RequestCall) (l : Objects) :
    Exchange l [] (allocRequest call l).2.2 (allocRequest call l).2.1.objects := by
  have h₁ := Exchange.create l .mrList
  have h₂ := h₁.thenAppend .mapPage
  have h₃ := h₂.thenAppend .indirectDesc
  cases call with
  | noMrList => exact .refl l _
  | noMapPage => exact h₁
  | noIndirectDesc => exact h₂
  | noMapping => exact h₃
  | ok =>
      have h₄ := h₃.thenAppend .dmaMap
      apply h₄.reorder (.refl _)
      exact .cons _ (.cons _ (.swap _ _ _))

theorem objects_addRequest (ring : ReqRing) (req : Request) :
    (req.objects++ring.objects).Perm
      ({ ring with reqs := ring.reqs++[req] } : ReqRing).objects := by
  apply List.perm_iff_count.mpr
  intro o
  simp only [ReqRing.objects, List.flatMap_append, List.flatMap_cons, List.flatMap_nil,
    List.append_nil, List.count_append]
  omega

theorem fillReqRing_exchange (request : ℕ → RequestCall) (n : ℕ) (ring : ReqRing) (l : Objects) :
    Exchange l ring.objects (fillReqRing request n ring l).2.2
      (fillReqRing request n ring l).2.1.objects := by
  induction n generalizing ring l with
  | zero => exact .refl l _
  | succ n ih =>
      have hreq := (allocRequest_exchange (request ring.reqs.length) l).frame ring.objects
      have hadd := hreq.reorder (.refl _) (objects_addRequest ring _)
      simp only [fillReqRing]
      split_ifs
      · exact hadd.trans (ih _ _)
      · exact hadd

theorem srpAllocReqData_exchange (reqRingSize : ℕ) (calls : ChCalls) (ch : Channel r)
    (l : Objects) :
    Exchange l [] (srpAllocReqData reqRingSize calls ch l).objects
      (reqObjects (srpAllocReqData reqRingSize calls ch l).ch.reqRing) := by
  unfold srpAllocReqData
  cases calls.allocReqRing with
  | false => exact .refl l _
  | true =>
      have hcreate : Exchange l [] (l.create .reqRing) (ReqRing.objects ⟨l.fresh .reqRing, []⟩) :=
        Exchange.create l .reqRing
      exact hcreate.trans (fillReqRing_exchange calls.request reqRingSize _ _)

theorem srpAllocIu_exchange (call : IuCall) (l : Objects) :
    Exchange l [] (srpAllocIu call l).2 ((srpAllocIu call l).1.toList.flatMap Iu.objects) := by
  have h₁ := Exchange.create l .iu
  have h₂ := h₁.thenCreate .iuBuf
  cases call with
  | noIu => exact .refl l _
  | noBuf => exact h₁.trans (.destroy _ _)
  | noMapping =>
      have hall := h₂.trans (.destroy _ _)
      rw [← List.singleton_append, ← Ledger.destroy_destroy] at hall
      exact hall
  | ok => exact h₂.thenCreate .dmaMap

theorem objects_addIu (ring : IuRing) (iu : Iu) :
    (iu.objects++ring.objects).Perm ({ ring with ius := ring.ius++[iu] } : IuRing).objects := by
  apply List.perm_iff_count.mpr
  intro o
  simp only [IuRing.objects, List.flatMap_append, List.flatMap_cons, List.flatMap_nil,
    List.append_nil, List.count_append]
  omega

theorem fillIuRing_exchange (call : ℕ → IuCall) (n : ℕ) (ring : IuRing) (l : Objects) :
    Exchange l ring.objects (fillIuRing call n ring l).2.2
      (fillIuRing call n ring l).2.1.objects := by
  induction n generalizing ring l with
  | zero => exact .refl l _
  | succ n ih =>
      have hiu := (srpAllocIu_exchange (call ring.ius.length) l).frame ring.objects
      unfold fillIuRing
      generalize srpAllocIu (call ring.ius.length) l = p at hiu
      rcases p with ⟨_ | iu, l'⟩
      · exact hiu
      · have hadd := hiu.reorder (.refl _)
          (by simpa using objects_addIu ring iu)
        exact hadd.trans (ih _ _)

theorem fillRings_exchange (queueSize : ℕ) (calls : IuCalls) (rxMem txMem : Object)
    (l : Objects) :
    Exchange l [rxMem, txMem] (fillRings queueSize calls rxMem txMem l).objects
      ((fillRings queueSize calls rxMem txMem l).rx.objects++
        (fillRings queueSize calls rxMem txMem l).tx.objects) := by
  have hrx := (fillIuRing_exchange calls.rxIu queueSize ⟨rxMem, []⟩ l).frame [txMem]
  simp only [fillRings]
  split_ifs
  · exact hrx.trans ((fillIuRing_exchange calls.txIu queueSize ⟨txMem, []⟩ _).frameLeft _)
  · exact hrx

theorem freeEntries_perm (rx tx : List Iu) :
    (freeEntries rx tx).Perm (rx.flatMap Iu.objects++tx.flatMap Iu.objects) := by
  induction rx generalizing tx with
  | nil => exact .refl _
  | cons iu rx ih =>
      cases tx with
      | nil =>
          simp [freeEntries]
      | cons iu' tx =>
          have hrest := (ih tx).count_eq
          apply List.perm_iff_count.mpr
          intro o
          simp only [freeEntries, List.flatMap_cons, List.count_append, hrest o]
          omega

theorem freeEntries_exchange (rx tx : IuRing) (l : Objects) :
    Exchange l (rx.objects++tx.objects)
      (((l.destroy (freeEntries rx.ius tx.ius)).destroy [tx.mem]).destroy [rx.mem]) [] := by
  rw [Ledger.destroy_destroy, Ledger.destroy_destroy]
  apply (Exchange.destroy l _).reorder _ (.refl _)
  have hentries := (freeEntries_perm rx.ius tx.ius).count_eq
  apply List.perm_iff_count.mpr
  intro o
  simp only [IuRing.objects, List.count_append, hentries o]
  omega

theorem srpAllocIuBufs_exchange (queueSize : ℕ) (calls : IuCalls) {ch : Channel r}
    (htx : ch.txRing = none) (l : Objects) :
    Exchange l [] (srpAllocIuBufs queueSize calls ch l).objects
      (ringObjects (srpAllocIuBufs queueSize calls ch l).ch.rxRing++
        ringObjects (srpAllocIuBufs queueSize calls ch l).ch.txRing) := by
  have h₁ := Exchange.create l .iuRing
  have h₂ := h₁.thenAppend .iuRing
  cases hrx : calls.allocRxRing with
  | false =>
      simp only [srpAllocIuBufs, hrx, Bool.not_false, if_true, htx, Option.toList_none,
        List.map_nil, Ledger.destroy_nil]
      exact .refl l _
  | true =>
      cases htx' : calls.allocTxRing with
      | false =>
          simp only [srpAllocIuBufs, hrx, htx', Bool.not_false, Bool.not_true, Bool.false_eq_true,
            if_true, if_false]
          exact h₁.trans (.destroy _ _)
      | true =>
          simp only [srpAllocIuBufs, hrx, htx', Bool.not_true, Bool.false_eq_true, if_false]
          have hfill := h₂.trans (fillRings_exchange queueSize calls (l.fresh .iuRing)
            ((l.create .iuRing).fresh .iuRing) ((l.create .iuRing).create .iuRing))
          split_ifs
          · exact hfill
          · exact hfill.trans (freeEntries_exchange _ _ _)

/-- During a login the channel comes to own the rings that the callback allocates. -/
theorem srpConnectCh_exchange (queueSize : ℕ) (calls : ChCalls) {ch : Channel r}
    (hrx : ch.rxRing = none) (htx : ch.txRing = none) (l : Objects) :
    Exchange l [] (srpConnectCh queueSize calls ch l).objects
      (ringObjects (srpConnectCh queueSize calls ch l).ch.rxRing++
        ringObjects (srpConnectCh queueSize calls ch l).ch.txRing) := by
  unfold srpConnectCh
  rw [hrx]
  cases calls.rep with
  | none =>
      simp only [hrx, htx]
      exact .refl l _
  | some rep => exact srpAllocIuBufs_exchange queueSize rep htx l

/-- What `srp_free_ch_ib` destroys of a channel with a queue pair, in order. -/
theorem srpFreeChIb_objects {ch : Channel r} {qp : Object} (htarget : ch.target = true)
    (hqp : ch.verbs.qp = some qp) (l : Objects) :
    (srpFreeChIb ch l).2 = l.destroy (ch.cmId.toList++(poolObjects ch.verbs.pool++(qp::
      (ch.verbs.sendCq.toList++(ch.verbs.recvCq.toList++
        (ringObjects ch.rxRing++ringObjects ch.txRing)))))) := by
  cases hpool : ch.verbs.pool with
  | none =>
      simp only [srpFreeChIb, htarget, hqp, hpool, Bool.not_true, Bool.false_eq_true, if_false,
        Ledger.destroy_destroy, poolObjects, List.nil_append, List.append_assoc,
        List.cons_append]
  | some pool =>
      simp only [srpFreeChIb, htarget, hqp, hpool, Bool.not_true, Bool.false_eq_true, if_false,
        destroyPool_eq, Ledger.destroy_destroy, poolObjects, List.append_assoc, List.nil_append,
        List.cons_append]

/-- A sound channel is left with nothing by `srp_free_ch_ib`. -/
theorem srpFreeChIb_exchange {ch : Channel r} (h : ch.Sound) (l : Objects) :
    Exchange l ch.ibOwned (srpFreeChIb ch l).2 [] := by
  cases htarget : ch.target with
  | false =>
      simp only [srpFreeChIb, htarget, Bool.not_false, if_true, h.blank htarget]
      exact .refl l _
  | true =>
      cases hqp : ch.verbs.qp with
      | none =>
          have hrings := h.rings hqp
          have howned : ch.ibOwned = ch.cmId.toList := by
            simp [Channel.ibOwned, verbsOwned, hqp, hrings.1, hrings.2, ringObjects]
          simp only [srpFreeChIb, htarget, Bool.not_true, Bool.false_eq_true, if_false, hqp,
            howned]
          exact .destroy l _
      | some qp =>
          rw [srpFreeChIb_objects htarget hqp]
          apply (Exchange.destroy l _).reorder _ (.refl _)
          apply List.perm_iff_count.mpr
          intro o
          simp only [Channel.ibOwned, verbsOwned, Verbs.owned, hqp, Option.isSome_some, if_true,
            Option.toList_some, List.count_append, List.count_cons, List.count_nil]
          omega

theorem srpFreeChIb_ch {ch : Channel r} (h : ch.Sound) (l : Objects) :
    (srpFreeChIb ch l).1.ibOwned = [] ∧ (srpFreeChIb ch l).1.reqRing = ch.reqRing := by
  cases htarget : ch.target with
  | false =>
      simp only [srpFreeChIb, htarget, Bool.not_false, if_true]
      exact ⟨h.blank htarget, trivial⟩
  | true =>
      cases hqp : ch.verbs.qp with
      | none =>
          have hrings := h.rings hqp
          simp [srpFreeChIb, htarget, hqp, Channel.ibOwned, verbsOwned, hrings.1, hrings.2,
            ringObjects]
      | some qp =>
          simp [srpFreeChIb, htarget, hqp, Channel.ibOwned, verbsOwned, ringObjects]

theorem srpFreeReqData_exchange (ch : Channel r) (l : Objects) :
    Exchange l (reqObjects ch.reqRing) (srpFreeReqData ch l).2 [] := by
  unfold srpFreeReqData
  cases ch.reqRing with
  | none => exact .refl l _
  | some ring => exact .destroy l _

theorem free_exchange {ch : Channel r} (h : ch.Sound) (l : Objects) :
    Exchange l ch.owned (srpFreeReqData (srpFreeChIb ch l).1 (srpFreeChIb ch l).2).2 [] := by
  have hib := (srpFreeChIb_exchange h l).frame (reqObjects ch.reqRing)
  rw [← (srpFreeChIb_ch h l).2] at hib
  have hall := hib.trans (srpFreeReqData_exchange _ _)
  rw [(srpFreeChIb_ch h l).2] at hall
  exact hall

end

end IbSrp.ChannelResources
