import IbSrp.ObjectLedger
import Mathlib.Data.Int.Notation
import Mathlib.Data.List.Basic

/-!
# The verbs objects of a channel

`srp_create_ch_ib` makes the two completion queues, the queue pair and the pool of
memory regions of a channel. It is called once when the channel is set up and once for
each reconnect, and in the second case the new objects are made next to the old ones,
which are destroyed only when nothing can fail any more. A failure jumps to one of a
row of labels that undo what has been done.

The queue pair comes either from `rdma_create_qp`, which also stores it in the CM ID,
or from `ib_create_qp` followed by `srp_init_ib_qp`. The pool is one of the driver for
fast registration, one of the kernel for FMR, or there is none. The results of the
calls are given. The temporary attribute structures are objects like the others.
-/
namespace IbSrp.ChannelObjects
open ObjectLedger

inductive Kind where
  | initAttr | qpAttr | cq | qp | frPool | mr | frpl | fmrPool
  | cmId | reqRing | mrList | mapPage | indirectDesc | dmaMap | iuRing | iu | iuBuf
  | chArray | mqMap
deriving DecidableEq, Repr

abbrev Object := Obj Kind

abbrev Objects := Ledger Kind

/-- How the pool of a channel is made: the branches of `srp_create_ch_ib`. -/
inductive Registration where
  | fastReg | fmr | none
deriving DecidableEq, Repr

structure SrpDevice where
  useFastReg : Bool
  hasFr : Bool
  hasFmr : Bool

def SrpDevice.registration (dev : SrpDevice) : Registration :=
  if dev.useFastReg && dev.hasFr then .fastReg
  else if !dev.useFastReg && dev.hasFmr then .fmr
  else .none

/-- `struct srp_fr_desc` -/
structure FrDesc where
  mr : Option Object := none
  frpl : Option Object := none

/-- `struct srp_fr_pool`, with the descriptors that are not all zero. -/
structure FrPool where
  mem : Object
  desc : List FrDesc := []

/-- The union of `fr_pool` and `fmr_pool` -/
def Pool : Registration → Type
  | .fastReg => FrPool
  | .fmr => Object
  | .none => Empty

/-- The results of the calls within one call of `srp_create_ch_ib`. An integer is an error
code or zero. -/
structure Calls where
  allocInitAttr : Bool
  createRecvCq : ℤ
  createSendCq : ℤ
  createQp : ℤ
  allocQpAttr : Bool
  findCachedPkey : ℤ
  modifyQp : ℤ
  allocPool : Bool
  allocFastRegMr : ℕ → ℤ
  allocFastRegPageList : ℕ → ℤ
  createFmrPool : ℤ

def enomem : ℤ := 12

def einval : ℤ := 22

/-- The body of the loop of `srp_destroy_fr_pool` -/
def FrDesc.objects (d : FrDesc) : List Object := d.frpl.toList++d.mr.toList

def FrPool.objects (pool : FrPool) : List Object :=
  pool.desc.flatMap FrDesc.objects++[pool.mem]

def srpDestroyFrPool (pool : FrPool) (l : Objects) : Objects :=
  (pool.desc.foldl (fun l d => (l.destroy d.frpl.toList).destroy d.mr.toList) l).destroy [pool.mem]

/-- The loop of `srp_create_fr_pool` with `n` descriptors to go. -/
def fillFrPool (calls : Calls) : ℕ → FrPool → Objects → ℤ × FrPool × Objects
  | 0, pool, l => (0, pool, l)
  | n+1, pool, l =>
      let i := pool.desc.length
      if calls.allocFastRegMr i ≠ 0 then (calls.allocFastRegMr i, pool, l)
      else
        let mr := l.fresh .mr
        let l := l.create .mr
        if calls.allocFastRegPageList i ≠ 0 then
          (calls.allocFastRegPageList i, { pool with desc := pool.desc++[⟨some mr, none⟩] }, l)
        else
          let frpl := l.fresh .frpl
          fillFrPool calls n { pool with desc := pool.desc++[⟨some mr, some frpl⟩] }
            (l.create .frpl)

def srpCreateFrPool (calls : Calls) (poolSize : ℤ) (l : Objects) : Except ℤ FrPool × Objects :=
  if poolSize ≤ 0 then (.error (-einval), l)
  else if !calls.allocPool then (.error (-enomem), l)
  else
    let p := fillFrPool calls poolSize.toNat { mem := l.fresh .frPool } (l.create .frPool)
    if p.1 ≠ 0 then (.error p.1, srpDestroyFrPool p.2.1 p.2.2) else (.ok p.2.1, p.2.2)

/-- The pool that a channel gets: `srp_alloc_fr_pool`, `srp_alloc_fmr_pool` or none. -/
def allocPool (calls : Calls) (canQueue : ℤ) :
    (r : Registration) → Objects → Except ℤ (Option (Pool r)) × Objects
  | .fastReg, l =>
      match srpCreateFrPool calls canQueue l with
      | (.ok pool, l) => (.ok (some pool), l)
      | (.error ret, l) => (.error ret, l)
  | .fmr, l =>
      if calls.createFmrPool ≠ 0 then (.error calls.createFmrPool, l)
      else (.ok (some (l.fresh .fmrPool)), l.create .fmrPool)
  | .none, l => (.ok none, l)

def destroyPool : (r : Registration) → Pool r → Objects → Objects
  | .fastReg, pool, l => srpDestroyFrPool pool l
  | .fmr, pool, l => l.destroy [pool]

structure Verbs (r : Registration) where
  qp : Option Object := none
  recvCq : Option Object := none
  sendCq : Option Object := none
  pool : Option (Pool r) := none

/-- The verbs objects of a channel, and the queue pair that its RDMA/CM ID refers to. -/
structure Ch (r : Registration) extends Verbs r where
  cmQp : Option Object := none

/-- What a call of `srp_create_ch_ib` leaves. -/
structure Outcome (r : Registration) where
  ret : ℤ
  ch : Ch r
  objects : Objects

def srpInitIbQp (calls : Calls) (l : Objects) : ℤ × Objects :=
  if !calls.allocQpAttr then (-enomem, l)
  else
    let attr := l.fresh .qpAttr
    let l := l.create .qpAttr
    if calls.findCachedPkey ≠ 0 then (calls.findCachedPkey, l.destroy [attr])
    else (calls.modifyQp, l.destroy [attr])

def rdmaDestroyQp {r : Registration} (ch : Ch r) (l : Objects) : Ch r × Objects :=
  ({ ch with cmQp := none }, l.destroy ch.cmQp.toList)

/-- The creation of the queue pair. After a failure `qp` is not used. -/
def createQp {r : Registration} (usingRdmaCm : Bool) (calls : Calls) (ch : Ch r) (l : Objects) :
    Except ℤ Object × Ch r × Objects :=
  if usingRdmaCm then
    if calls.createQp ≠ 0 then (.error calls.createQp, ch, l)
    else (.ok (l.fresh .qp), { ch with cmQp := some (l.fresh .qp) }, l.create .qp)
  else if calls.createQp ≠ 0 then (.error calls.createQp, ch, l)
  else
    let p := srpInitIbQp calls (l.create .qp)
    if p.1 ≠ 0 then (.error p.1, ch, p.2.destroy [l.fresh .qp])
    else (.ok (l.fresh .qp), ch, p.2)

def err (initAttr : Object) (l : Objects) : Objects := l.destroy [initAttr]

def errRecvCq (recvCq initAttr : Object) (l : Objects) : Objects :=
  err initAttr (l.destroy [recvCq])

def errSendCq (sendCq recvCq initAttr : Object) (l : Objects) : Objects :=
  errRecvCq recvCq initAttr (l.destroy [sendCq])

def errQp {r : Registration} (usingRdmaCm : Bool) (ret : ℤ) (qp sendCq recvCq initAttr : Object)
    (ch : Ch r) (l : Objects) : Outcome r :=
  if usingRdmaCm then
    let p := rdmaDestroyQp ch l
    ⟨ret, p.1, errSendCq sendCq recvCq initAttr p.2⟩
  else ⟨ret, ch, errSendCq sendCq recvCq initAttr (l.destroy [qp])⟩

/-- The statements that replace the objects; `srp_destroy_qp` ends with `ib_destroy_qp`. -/
def replace {r : Registration} (qp sendCq recvCq initAttr : Object) (pool : Option (Pool r))
    (ch : Ch r) (l : Objects) : Outcome r :=
  let l :=
    match pool, ch.pool with
    | some _, some old => destroyPool r old l
    | _, _ => l
  let l := l.destroy ch.qp.toList
  let l := l.destroy ch.recvCq.toList
  let l := l.destroy ch.sendCq.toList
  { ret := 0
    ch := { ch with
      qp := some qp, recvCq := some recvCq, sendCq := some sendCq,
      pool := pool.or ch.pool }
    objects := l.destroy [initAttr] }

def srpCreateChIb {r : Registration} (usingRdmaCm : Bool) (canQueue : ℤ) (calls : Calls)
    (ch : Ch r) (l : Objects) : Outcome r :=
  if !calls.allocInitAttr then ⟨-enomem, ch, l⟩
  else
    let initAttr := l.fresh .initAttr
    let l := l.create .initAttr
    if calls.createRecvCq ≠ 0 then ⟨calls.createRecvCq, ch, err initAttr l⟩
    else
      let recvCq := l.fresh .cq
      let l := l.create .cq
      if calls.createSendCq ≠ 0 then ⟨calls.createSendCq, ch, errRecvCq recvCq initAttr l⟩
      else
        let sendCq := l.fresh .cq
        let l := l.create .cq
        match createQp usingRdmaCm calls ch l with
        | (.error ret, ch, l) => ⟨ret, ch, errSendCq sendCq recvCq initAttr l⟩
        | (.ok qp, ch, l) =>
            match allocPool calls canQueue r l with
            | (.error ret, l) => errQp usingRdmaCm ret qp sendCq recvCq initAttr ch l
            | (.ok pool, l) => replace qp sendCq recvCq initAttr pool ch l

/-- The objects of a pool, in the order in which they are destroyed. -/
def Pool.objects : {r : Registration} → Pool r → List Object
  | .fastReg, pool => FrPool.objects pool
  | .fmr, pool => [pool]

def poolObjects {r : Registration} : Option (Pool r) → List Object
  | none => []
  | some pool => pool.objects

/-- The objects that a channel owns, in the order in which they are replaced. -/
def Verbs.owned {r : Registration} (v : Verbs r) : List Object :=
  poolObjects v.pool++(v.qp.toList++(v.recvCq.toList++v.sendCq.toList))

theorem srpDestroyFrPool_eq (pool : FrPool) (l : Objects) :
    srpDestroyFrPool pool l = l.destroy pool.objects := by
  have hloop : ∀ (desc : List FrDesc) (l : Objects),
      desc.foldl (fun l d => (l.destroy d.frpl.toList).destroy d.mr.toList) l =
        l.destroy (desc.flatMap FrDesc.objects) := by
    intro desc
    induction desc with
    | nil =>
        intro l
        exact (Ledger.destroy_nil l).symm
    | cons d desc ih =>
        intro l
        rw [List.foldl_cons, ih, Ledger.destroy_destroy, Ledger.destroy_destroy,
          List.flatMap_cons, FrDesc.objects, List.append_assoc]
  rw [srpDestroyFrPool, hloop, Ledger.destroy_destroy, FrPool.objects]

theorem destroyPool_eq {r : Registration} (pool : Pool r) (l : Objects) :
    destroyPool r pool l = l.destroy pool.objects := by
  cases r with
  | fastReg => exact srpDestroyFrPool_eq pool l
  | fmr => rfl
  | none => exact pool.elim

theorem objects_addDesc (pool : FrPool) (d : FrDesc) :
    (d.objects++pool.objects).Perm
      ({ pool with desc := pool.desc++[d] } : FrPool).objects := by
  apply List.perm_iff_count.mpr
  intro o
  simp only [FrPool.objects, List.flatMap_append, List.flatMap_cons, List.flatMap_nil,
    List.append_nil, List.count_append]
  omega

/-- Whatever the calls return, the pool owns what the loop has allocated. -/
theorem fillFrPool_exchange (calls : Calls) (n : ℕ) (pool : FrPool) (l : Objects) :
    Exchange l pool.objects (fillFrPool calls n pool l).2.2
      (fillFrPool calls n pool l).2.1.objects := by
  induction n generalizing pool l with
  | zero => exact .refl l _
  | succ n ih =>
      by_cases hmr : calls.allocFastRegMr pool.desc.length = 0
      · have hcreate := (Exchange.create l .mr).frame pool.objects
        by_cases hfrpl : calls.allocFastRegPageList pool.desc.length = 0
        · have hboth := hcreate.trans ((Exchange.create (l.create .mr) .frpl).frame _)
          simp only [fillFrPool, hmr, hfrpl, ne_eq, not_true_eq_false, if_false]
          exact (hboth.reorder (.refl _)
            (objects_addDesc pool ⟨some (l.fresh .mr), some ((l.create .mr).fresh .frpl)⟩)).trans
              (ih _ _)
        · simp only [fillFrPool, hmr, hfrpl, ne_eq, not_true_eq_false, not_false_eq_true, if_false,
            if_true]
          exact hcreate.reorder (.refl _) (objects_addDesc pool ⟨some (l.fresh .mr), none⟩)
      · simp only [fillFrPool, hmr, ne_eq, not_false_eq_true, if_true]
        exact .refl l _

/-- A call has made something that owns objects, or has failed and left nothing. -/
inductive Made {β : Type} (objects : β → List Object) (l : Objects) : Except ℤ β × Objects → Prop
  | ok {b : β} {l' : Objects} : Exchange l [] l' (objects b) → Made objects l (.ok b, l')
  | error {ret : ℤ} {l' : Objects} : ret ≠ 0 → Exchange l [] l' [] → Made objects l (.error ret, l')

theorem srpCreateFrPool_made (calls : Calls) (poolSize : ℤ) (l : Objects) :
    Made FrPool.objects l (srpCreateFrPool calls poolSize l) := by
  by_cases hsize : poolSize ≤ 0
  · simp only [srpCreateFrPool, hsize, if_true]
    exact .error (by decide) (.refl l _)
  cases halloc : calls.allocPool with
  | false =>
      simp only [srpCreateFrPool, hsize, halloc, if_false, Bool.not_false, if_true]
      exact .error (by decide) (.refl l _)
  | true =>
      have hcreate : Exchange l [] (l.create .frPool) (FrPool.objects ⟨l.fresh .frPool, []⟩) :=
        Exchange.create l .frPool
      have hfill := hcreate.trans (fillFrPool_exchange calls poolSize.toNat _ _)
      simp only [srpCreateFrPool, hsize, halloc, if_false, Bool.not_true, Bool.false_eq_true]
      split_ifs with hret
      · rw [srpDestroyFrPool_eq]
        exact .error hret (hfill.trans (Exchange.destroy _ _))
      · exact .ok hfill

theorem allocPool_made (calls : Calls) (canQueue : ℤ) (r : Registration) (l : Objects) :
    Made poolObjects l (allocPool calls canQueue r l) := by
  cases r with
  | fastReg =>
      have hmade := srpCreateFrPool_made calls canQueue l
      simp only [allocPool]
      generalize srpCreateFrPool calls canQueue l = made at hmade
      cases hmade with
      | ok h => exact .ok h
      | error hret h => exact .error hret h
  | fmr =>
      simp only [allocPool]
      split_ifs with hret
      · exact .error hret (.refl l _)
      · exact .ok (Exchange.create l .fmrPool)
  | none => exact .ok (.refl l _)

theorem srpInitIbQp_exchange (calls : Calls) (l : Objects) :
    Exchange l [] (srpInitIbQp calls l).2 [] := by
  have hattr := (Exchange.create l .qpAttr).trans (Exchange.destroy _ _)
  unfold srpInitIbQp
  cases calls.allocQpAttr with
  | false => exact .refl l _
  | true =>
      by_cases hpkey : calls.findCachedPkey = 0
      · simpa [hpkey] using hattr
      · simpa [hpkey] using hattr

section
variable {r : Registration} (usingRdmaCm : Bool) (calls : Calls) (ch : Ch r) (l : Objects)

/-- The attempt to make a queue pair leaves the pointers of the channel alone, and the CM ID
refers to the new queue pair if it has made it. -/
inductive QpMade : Except ℤ Object × Ch r × Objects → Prop
  | ok {qp : Object} {ch' : Ch r} {l' : Objects} : Exchange l [] l' [qp] →
      ch'.toVerbs = ch.toVerbs → (usingRdmaCm = true → ch'.cmQp = some qp) →
        QpMade (.ok qp, ch', l')
  | error {ret : ℤ} {l' : Objects} : ret ≠ 0 → Exchange l [] l' [] → QpMade (.error ret, ch, l')

theorem createQp_made : QpMade usingRdmaCm ch l (createQp usingRdmaCm calls ch l) := by
  by_cases hret : calls.createQp = 0
  · have hcreate := Exchange.create l .qp
    cases usingRdmaCm with
    | true =>
        simp only [createQp, hret, if_true, ne_eq, not_true_eq_false, if_false]
        exact .ok hcreate rfl fun _ => rfl
    | false =>
        have hinit := hcreate.trans ((srpInitIbQp_exchange calls (l.create .qp)).frame _)
        simp only [createQp, hret, if_false, ne_eq, not_true_eq_false, Bool.false_eq_true]
        split_ifs with hzero
        · exact .ok hinit rfl nofun
        · exact .error hzero (hinit.trans (Exchange.destroy _ _))
  · have he : createQp usingRdmaCm calls ch l = (.error calls.createQp, ch, l) := by
      cases usingRdmaCm <;> simp [createQp, hret]
    rw [he]
    exact .error hret (.refl l _)

end

theorem allocPool_isSome {calls : Calls} {canQueue : ℤ} {r : Registration} {l l' : Objects}
    {pool : Option (Pool r)} (h : allocPool calls canQueue r l = (.ok pool, l'))
    (hr : r ≠ .none) : pool.isSome := by
  cases r with
  | fastReg =>
      simp only [allocPool] at h
      split at h
      · cases h
        rfl
      · cases h
  | fmr =>
      simp only [allocPool] at h
      split_ifs at h
      · cases h
      · cases h
        rfl
  | none => exact absurd rfl hr

theorem errSendCq_exchange (sendCq recvCq initAttr : Object) (l : Objects) :
    Exchange l [sendCq, recvCq, initAttr] (errSendCq sendCq recvCq initAttr l) [] := by
  have he : errSendCq sendCq recvCq initAttr l = l.destroy [sendCq, recvCq, initAttr] := by
    simp [errSendCq, errRecvCq, err]
  rw [he]
  exact .destroy l _

/-- All that the channel needs is there. -/
structure Verbs.Complete {r : Registration} (v : Verbs r) : Prop where
  qp : v.qp.isSome
  recvCq : v.recvCq.isSome
  sendCq : v.sendCq.isSome
  pool : r ≠ .none → v.pool.isSome

/-- The replacement is all or nothing: a call that fails leaves the pointers as they were and
nothing that it made; one that succeeds makes all new objects first and then destroys the old
ones in the order in which they are listed. -/
inductive Replaced {r : Registration} (ch : Ch r) (l : Objects) : Outcome r → Prop
  | failed {ret : ℤ} {ch' : Ch r} {l' : Objects} : ret ≠ 0 → ch'.toVerbs = ch.toVerbs →
      Exchange l [] l' [] → Replaced ch l ⟨ret, ch', l'⟩
  | done {ch' : Ch r} {made : Objects} {initAttr : Object} :
      Exchange l [] made (ch'.owned++[initAttr]) → ch'.Complete →
        Replaced ch l ⟨0, ch', made.destroy (ch.owned++[initAttr])⟩

section
variable {r : Registration} {usingRdmaCm : Bool} {ch ch' : Ch r} {l l' : Objects}
  {qp sendCq recvCq initAttr : Object}

theorem errQp_replaced {ret : ℤ} (hret : ret ≠ 0)
    (hmade : Exchange l [] l' [qp, sendCq, recvCq, initAttr]) (hverbs : ch'.toVerbs = ch.toVerbs)
    (hcm : usingRdmaCm = true → ch'.cmQp = some qp) :
    Replaced ch l (errQp usingRdmaCm ret qp sendCq recvCq initAttr ch' l') := by
  have hqp := hmade.trans ((Exchange.destroy l' [qp]).frame [sendCq, recvCq, initAttr])
  have hall := hqp.trans (errSendCq_exchange sendCq recvCq initAttr _)
  cases husing : usingRdmaCm with
  | true =>
      simp only [errQp, rdmaDestroyQp, hcm husing, if_true]
      exact .failed hret hverbs hall
  | false =>
      simp only [errQp, Bool.false_eq_true, if_false]
      exact .failed hret hverbs hall

theorem pool_eq_none (hr : r = .none) (pool : Option (Pool r)) : pool = none := by
  subst hr
  cases pool with
  | none => rfl
  | some pool => exact pool.elim

theorem replace_replaced {pool : Option (Pool r)} (hpool : r ≠ .none → pool.isSome)
    (hmade : Exchange l [] l' (poolObjects pool++[qp, sendCq, recvCq, initAttr]))
    (hverbs : ch'.toVerbs = ch.toVerbs) :
    Replaced ch l (replace qp sendCq recvCq initAttr pool ch' l') := by
  have hold : pool.or ch'.pool = pool ∧ (pool = none → ch'.pool = none) := by
    by_cases hr : r = .none
    · rw [pool_eq_none hr pool, pool_eq_none hr ch'.pool]
      exact ⟨rfl, fun _ => rfl⟩
    · cases pool with
      | none => cases hpool hr
      | some pool => exact ⟨rfl, nofun⟩
  have hobjects : (replace qp sendCq recvCq initAttr pool ch' l').objects =
      l'.destroy (ch.owned++[initAttr]) := by
    rw [← hverbs]
    cases pool with
    | none =>
        simp only [replace, Verbs.owned, hold.2 rfl, poolObjects, Ledger.destroy_destroy,
          List.nil_append, List.append_assoc]
    | some pool =>
        cases hch : ch'.pool with
        | none =>
            simp only [replace, Verbs.owned, hch, poolObjects, Ledger.destroy_destroy,
              List.nil_append, List.append_assoc]
        | some old =>
            simp only [replace, Verbs.owned, hch, poolObjects, destroyPool_eq,
              Ledger.destroy_destroy, List.append_assoc]
  have hnew : (poolObjects pool++[qp, sendCq, recvCq, initAttr]).Perm
      ((replace qp sendCq recvCq initAttr pool ch' l').ch.owned++[initAttr]) := by
    simp only [replace, Verbs.owned, hold.1, Option.toList_some, List.append_assoc]
    exact List.Perm.append_left _ ((List.Perm.swap recvCq sendCq [initAttr]).cons qp)
  have hcomplete : (replace qp sendCq recvCq initAttr pool ch' l').ch.Complete :=
    ⟨rfl, rfl, rfl, fun hr => by simpa [replace, hold.1] using hpool hr⟩
  have hdone : Replaced ch l _ := .done (hmade.reorder (.refl _) hnew) hcomplete
  rw [← hobjects] at hdone
  exact hdone

end

theorem srpCreateChIb_replaced {r : Registration} (usingRdmaCm : Bool) (canQueue : ℤ)
    (calls : Calls) (ch : Ch r) (l : Objects) :
    Replaced ch l (srpCreateChIb usingRdmaCm canQueue calls ch l) := by
  cases hattr : calls.allocInitAttr with
  | false =>
      simp only [srpCreateChIb, hattr, Bool.not_false, if_true]
      exact .failed (by decide) rfl (.refl l _)
  | true =>
      simp only [srpCreateChIb, hattr, Bool.not_true, Bool.false_eq_true, if_false]
      have h₁ := Exchange.create l .initAttr
      by_cases hrecv : calls.createRecvCq ≠ 0
      · rw [if_pos hrecv]
        exact .failed hrecv rfl (h₁.trans (.destroy _ _))
      have h₂ := h₁.thenCreate .cq
      rw [if_neg hrecv]
      by_cases hsend : calls.createSendCq ≠ 0
      · rw [if_pos hsend, errRecvCq, err, Ledger.destroy_destroy]
        exact .failed hsend rfl (h₂.trans (.destroy _ _))
      have h₃ := h₂.thenCreate .cq
      rw [if_neg hsend]
      have hqp := createQp_made usingRdmaCm calls ch (((l.create .initAttr).create .cq).create .cq)
      generalize createQp usingRdmaCm calls ch (((l.create .initAttr).create .cq).create .cq) =
        qpResult at hqp
      cases hqp with
      | error hret hqp =>
          exact .failed hret rfl ((h₃.trans (hqp.frame _)).trans (errSendCq_exchange _ _ _ _))
      | ok hqp hverbs hcm =>
          rename_i qp ch' l'
          have h₄ := h₃.trans (hqp.frame _)
          have hpool := allocPool_made calls canQueue r l'
          cases hresult : allocPool calls canQueue r l' with
          | mk result l'' =>
              rw [hresult] at hpool
              simp only [hresult]
              cases hpool with
              | error hret hpool =>
                  exact errQp_replaced hret (h₄.trans (hpool.frame _)) hverbs hcm
              | ok hpool =>
                  exact replace_replaced (allocPool_isSome hresult)
                    (h₄.trans (hpool.frame _)) hverbs

section
variable {r : Registration} {ch : Ch r} {l : Objects} {out : Outcome r}

theorem Replaced.exchange (h : Replaced ch l out) :
    Exchange l ch.owned out.objects out.ch.owned := by
  cases h with
  | failed hret hverbs hnone =>
      have hframe := hnone.frame ch.owned
      rw [← hverbs] at hframe ⊢
      exact hframe
  | done hmade hcomplete =>
      rename_i ch' made initAttr
      have hall := hmade.frame ch.owned
      have hperm : (ch'.owned++[initAttr]++ch.owned).Perm (ch.owned++[initAttr]++ch'.owned) := by
        apply List.perm_iff_count.mpr
        intro o
        simp only [List.count_append]
        omega
      exact (hall.reorder (.refl _) hperm).trans ((Exchange.destroy made _).frame ch'.owned)

theorem qp_cq_sublist {v : Verbs r} {qp cq : Object} (hqp : v.qp = some qp)
    (hcq : v.recvCq = some cq ∨ v.sendCq = some cq) : [qp, cq].Sublist v.owned := by
  have hmem : cq ∈ v.recvCq.toList++v.sendCq.toList := by
    cases hcq with
    | inl h => simp [h]
    | inr h => simp [h]
  have hpair : [qp, cq].Sublist (v.qp.toList++(v.recvCq.toList++v.sendCq.toList)) := by
    rw [hqp]
    exact (List.singleton_sublist.mpr hmem).cons_cons qp
  exact hpair.trans (List.sublist_append_right _ _)

theorem qp_before_cq {made : Objects} {qp cq initAttr : Object} (hbefore : l.Before made)
    (hqp : ch.qp = some qp) (hcq : ch.recvCq = some cq ∨ ch.sendCq = some cq) :
    [Event.destroy qp, Event.destroy cq].Sublist
      (l.since (made.destroy (ch.owned++[initAttr]))) := by
  have hsince : l.since (made.destroy (ch.owned++[initAttr])) =
      l.since made++(ch.owned++[initAttr]).map Event.destroy :=
    List.drop_append_of_le_length hbefore.length_le
  have hsub : [qp, cq].Sublist (ch.owned++[initAttr]) :=
    (qp_cq_sublist hqp hcq).trans (List.sublist_append_left _ _)
  rw [hsince]
  exact (hsub.map Event.destroy).trans (List.sublist_append_right _ _)

end

/-- The verbs objects of a channel are replaced all at once or not at all, and nothing is
destroyed twice or lost on the way. -/
theorem channel_objects_replaced (dev : SrpDevice) (usingRdmaCm : Bool) (canQueue : ℤ)
    (calls : Calls) (ch : Ch dev.registration) (l : Objects) (rest : List Object)
    (h : Settled l (ch.owned++rest)) :
    let out := srpCreateChIb usingRdmaCm canQueue calls ch l
    let during := l.since out.objects
    (out.ret ≠ 0 →
      out.ch.toVerbs = ch.toVerbs ∧
      (∀ o ∈ created during, (destroyed during).count o = 1) ∧
      ∀ o ∈ destroyed during, o ∈ created during) ∧
    (out.ret = 0 →
      out.ch.Complete ∧
      (∀ o ∈ out.ch.owned, o ∈ created during ∧ o ∉ destroyed during) ∧
      (∀ o ∈ ch.owned, (destroyed during).count o = 1) ∧
      ∀ qp cq, ch.qp = some qp → ch.recvCq = some cq ∨ ch.sendCq = some cq →
        [Event.destroy qp, Event.destroy cq].Sublist during) := by
  intro out during
  have hreplaced : Replaced ch l out := srpCreateChIb_replaced usingRdmaCm canQueue calls ch l
  have hexchange := hreplaced.exchange
  have hafter := hexchange.settled rest h
  have hbefore := hexchange.before
  clear_value out
  cases hreplaced with
  | failed hret hverbs hnone =>
      constructor
      · intro _
        constructor
        · exact hverbs
        constructor
        · intro o ho
          exact hnone.all_destroyed_once h ho
        · intro o ho
          exact hnone.only_created_destroyed h ho
      · intro hzero
        exact absurd hzero hret
  | done hmade hcomplete =>
      rename_i ch' made initAttr
      have hnew : ∀ o ∈ ch'.owned, o ∉ ch.owned++rest := fun o ho =>
        hmade.not_mem_of_made h (List.mem_append_left _ ho)
      constructor
      · intro hret
        exact absurd rfl hret
      · intro _
        constructor
        · exact hcomplete
        constructor
        · intro o ho
          have hkept : o ∈ ch'.owned++rest := List.mem_append_left _ ho
          constructor
          · exact (Settled.kept_since h hafter hbefore hkept).resolve_left (hnew o ho)
          · exact hafter.kept_not_destroyed hbefore hkept
        constructor
        · intro o ho
          apply hexchange.given_destroyed_once h ho
          intro hmem
          exact hnew o hmem (List.mem_append_left _ ho)
        · intro qp cq hqp hcq
          exact qp_before_cq hmade.before hqp hcq

def frDevice : SrpDevice := ⟨true, true, false⟩

def noErrors : Calls :=
  { allocInitAttr := true, createRecvCq := 0, createSendCq := 0, createQp := 0,
    allocQpAttr := true, findCachedPkey := 0, modifyQp := 0, allocPool := true,
    allocFastRegMr := fun _ => 0, allocFastRegPageList := fun _ => 0, createFmrPool := 0 }

/-- There is no memory region left after the first one. -/
def oneRegion : Calls := { noErrors with allocFastRegMr := fun i => if i = 0 then 0 else -enomem }

/-- A channel with a pool of two descriptors after its first creation. -/
def firstCreated : Outcome frDevice.registration := srpCreateChIb true 2 noErrors {} {}

theorem firstCreated_settled : Settled firstCreated.objects (firstCreated.ch.owned++[]) :=
  (srpCreateChIb_replaced true 2 noErrors {} {}).exchange.settled [] .empty

theorem failed_reconnect_keeps_objects :
    (srpCreateChIb true 2 oneRegion firstCreated.ch firstCreated.objects).ret = -12 ∧
      (srpCreateChIb true 2 oneRegion firstCreated.ch firstCreated.objects).ch.toVerbs =
        firstCreated.ch.toVerbs := by
  have hret : (srpCreateChIb true 2 oneRegion firstCreated.ch firstCreated.objects).ret = -12 := rfl
  have hall := channel_objects_replaced frDevice true 2 oneRegion firstCreated.ch
    firstCreated.objects [] firstCreated_settled
  exact ⟨hret, (hall.1 (by rw [hret]; decide)).1⟩

end IbSrp.ChannelObjects
