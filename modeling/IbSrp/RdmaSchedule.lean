import IbSrp.TargetRdma

/-!
# The schedule that both passes follow

The schedule of a transfer is the list of its work requests with their pieces. It is defined
by recursion over the segments, without counters and slots: a piece is a whole segment if the
descriptor reaches to its end, and else what is left of the descriptor; an entry with 16
pieces is followed by another one if the descriptor goes on.

The first pass counts the pieces of the schedule. The second pass has the same loops over the
same numbers, but goes on to the next entry when as many slots have been filled as the first
pass has counted. That this is the same moment follows from the schedule: an entry that is
still to be filled gets at least one more piece.
-/
namespace IbSrp.TargetRdma
open MemoryRegistration (Sg)
open SrpCommand (RemoteBuf)
open ChannelObjects (enomem)

/-- What is left of a segment. -/
structure Seg where
  addr : ℕ
  len : ℕ
deriving DecidableEq, Repr

def segOf (sg : Sg) : Seg := ⟨sg.dmaAddress, sg.dmaLen⟩

def segLens (segs : List Seg) : List ℕ := segs.map Seg.len

structure Entry where
  raddr : ℕ
  rkey : ℕ
  sges : List Sge := []
deriving DecidableEq, Repr

def Entry.add (e : Entry) (sge : Sge) : Entry := { e with sges := e.sges++[sge] }

def Entry.iu (e : Entry) : RdmaIu := ⟨e.raddr, e.rkey, e.sges.length⟩

/-- A full entry is followed by another one if the descriptor goes on: the entries that are
complete, and the one that is to be filled. -/
def Entry.roll (e : Entry) (raddr : ℕ) (goesOn : Bool) : List Entry × Entry :=
  if goesOn ∧ e.sges.length = srptDefSgPerWqe then ([e], ⟨raddr, e.rkey, []⟩) else ([], e)

/-- The entries for what is left of a descriptor, `r` bytes from `raddr` on, and what is then
left of the segments. The first entry is the one that has been begun. -/
def cut (lkey : ℕ) : List Seg → ℕ → ℕ → Entry → List Entry × List Seg
  | [], _, _, e => ([e], [])
  | seg::segs, r, raddr, e =>
      if seg.len ≤ r then
        let raddr := (raddr+seg.len) % 2^64
        let q := (e.add ⟨seg.addr, seg.len, lkey⟩).roll raddr (seg.len < r)
        if (segLens segs).sum = 0 then (q.1++[q.2], [])
        else if r = seg.len then (q.1++[q.2], segs)
        else
          let p := cut lkey segs (r-seg.len) raddr q.2
          (q.1++p.1, p.2)
      else ([e.add ⟨seg.addr, r, lkey⟩], ⟨(seg.addr+r) % 2^64, seg.len-r⟩::segs)

def schedule (lkey : ℕ) : List RemoteBuf → List Seg → List Entry
  | [], _ => []
  | db::dbs, segs =>
      if (segLens segs).sum = 0 then []
      else
        let p := cut lkey segs db.len db.va ⟨db.va, db.key, []⟩
        p.1++schedule lkey dbs p.2

section
variable {a b : ℕ}

theorem sub32_of_le (h : b ≤ a) (ha : a < 2^32) : sub32 a b = a-b := by
  unfold sub32
  omega

end

section
variable {σ : Type} {cond : σ → Bool} {body : σ → σ} {s : σ} {fuel : ℕ}

theorem whileLoop_step (h : cond s = true) :
    whileLoop cond body (fuel+1) s = whileLoop cond body fuel (body s) := by
  rw [whileLoop, if_pos h]

theorem whileLoop_exit (h : cond s = false) (hfuel : 0 < fuel) :
    whileLoop cond body fuel s = some s := by
  cases fuel with
  | zero => cases hfuel
  | succ fuel => simp [whileLoop, h]

end

/-- The first pass is at the segments `segs`: these are the current one, or what is left of it,
and those behind it, as long as there are bytes left. -/
structure Count.At (s : Count) (count : ℕ) (segs : List Seg) : Prop where
  tsize : s.tsize = (segLens segs).sum
  small : (segLens segs).sum < 2^32
  here : 0 < (segLens segs).sum →
    s.j+1+s.next.length = count ∧ segLens segs = s.dmaLen::s.next.map Sg.dmaLen
  counter : s.nRdma < 2^8

section
variable {s : Count} {count : ℕ} {seg : Seg} {segs : List Seg}

@[simp] theorem segLens_cons : segLens (seg::segs) = seg.len::segLens segs := rfl

theorem Count.At.head (hat : s.At count (seg::segs)) (hpos : 0 < (segLens (seg::segs)).sum) :
    s.j+1+s.next.length = count ∧ seg.len = s.dmaLen ∧
      segLens segs = s.next.map Sg.dmaLen := by
  obtain ⟨hj, hsegs⟩ := hat.here hpos
  rw [segLens_cons, List.cons.injEq] at hsegs
  exact ⟨hj, hsegs⟩

theorem Count.consume_whole (hat : s.At count (seg::segs))
    (hpos : 0 < (segLens (seg::segs)).sum) (hle : seg.len ≤ s.rsize) (hr : s.rsize < 2^32) :
    ∃ j dmaLen next, s.consume = { s with
        tsize := (segLens segs).sum, rsize := s.rsize-seg.len,
        raddr := (s.raddr+seg.len) % 2^64, j := j, dmaLen := dmaLen, next := next } ∧
      s.consume.At count segs := by
  obtain ⟨hj, hlen, hnext⟩ := hat.head hpos
  have hsmall := hat.small
  have htsize := hat.tsize
  rw [segLens_cons, List.sum_cons] at hsmall htsize
  have hsub : sub32 s.tsize s.dmaLen = (segLens segs).sum := by
    rw [sub32_of_le (by omega) (by omega)]
    omega
  have hsub' : sub32 s.rsize s.dmaLen = s.rsize-seg.len := by
    rw [← hlen, sub32_of_le hle hr]
  simp only [Count.consume, ← hlen, if_pos hle] at hsub hsub' ⊢
  rw [hsub, hsub']
  by_cases hmore : 0 < (segLens segs).sum
  · rw [if_pos hmore]
    cases hs : s.next with
    | nil =>
        rw [hnext, hs] at hmore
        cases hmore
    | cons sg next =>
        rw [hs] at hnext hj
        have hj' : s.j+1+1+next.length = count := by
          rw [← hj, List.length_cons]
          omega
        exact ⟨_, _, _, rfl, rfl, by omega, fun _ => ⟨hj', hnext⟩, hat.counter⟩
  · rw [if_neg hmore]
    exact ⟨_, _, _, rfl, rfl, by omega, fun h => absurd h hmore, hat.counter⟩

theorem Count.consume_part (hat : s.At count (seg::segs)) (hr : 0 < s.rsize)
    (hlt : s.rsize < seg.len) (addr : ℕ) :
    s.consume = { s with
        tsize := (segLens (seg::segs)).sum-s.rsize, dmaLen := seg.len-s.rsize, rsize := 0 } ∧
      s.consume.At count (⟨addr, seg.len-s.rsize⟩::segs) := by
  have hpos : 0 < (segLens (seg::segs)).sum := by simp; omega
  obtain ⟨hj, hlen, hnext⟩ := hat.head hpos
  have hsmall := hat.small
  have htsize := hat.tsize
  rw [segLens_cons, List.sum_cons] at hsmall htsize
  have hsub : sub32 s.tsize s.rsize = (segLens (seg::segs)).sum-s.rsize := by
    rw [sub32_of_le (by omega) (by omega), hat.tsize]
  have hsub' : sub32 s.dmaLen s.rsize = seg.len-s.rsize := by
    rw [← hlen, sub32_of_le (by omega) (by omega)]
  have heq : s.consume = { s with
      tsize := (segLens (seg::segs)).sum-s.rsize, dmaLen := seg.len-s.rsize, rsize := 0 } := by
    rw [Count.consume, if_neg (by omega), hsub, hsub']
  refine ⟨heq, ?_⟩
  rw [heq]
  constructor
  · simp only [segLens_cons, List.sum_cons]
    omega
  · simp only [segLens_cons, List.sum_cons]
    omega
  · intro _
    exact ⟨hj, congrArg (List.cons _) hnext⟩
  · exact hat.counter

/-- What the inner loop of the first pass makes of `s`. -/
structure Counted (count : ℕ) (s : Count) (out : List Entry × List Seg) (s' : Count) : Prop where
  at_rest : s'.At count out.2
  ius : s'.close.ius = s.ius++out.1.map Entry.iu
  nRdma : s'.close.nRdma = (s.nRdma+out.1.length) % 2^8

theorem Count.exit {fuel : ℕ} {key : ℕ} (h : s.rsize = 0 ∨ s.tsize = 0) (hfuel : 0 < fuel) :
    whileLoop Count.more (countStep key) fuel s = some s := by
  apply whileLoop_exit _ hfuel
  rcases h with h | h
  · simp [Count.more, h]
  · simp [Count.more, h]

theorem Count.At.done (htsize : s.tsize = 0) (hcounter : s.nRdma < 2^8) : s.At count [] :=
  ⟨htsize, by decide, fun h => absurd h (by decide), hcounter⟩

theorem Entry.roll_rkey (e : Entry) (raddr : ℕ) (goesOn : Bool) :
    (e.roll raddr goesOn).2.rkey = e.rkey := by
  unfold Entry.roll
  split_ifs <;> rfl

theorem countStep_whole {e : Entry} (hat : s.At count (seg::segs))
    (hpos : 0 < (segLens (seg::segs)).sum) (hle : seg.len ≤ s.rsize) (hr : s.rsize < 2^32)
    (hriu : s.riu = e.iu) {q : List Entry × Entry} (lkey : ℕ)
    (hq : (e.add ⟨seg.addr, seg.len, lkey⟩).roll ((s.raddr+seg.len) % 2^64)
      (seg.len < s.rsize) = q) :
    (countStep e.rkey s).At count segs ∧
      (countStep e.rkey s).rsize = s.rsize-seg.len ∧
      (countStep e.rkey s).raddr = (s.raddr+seg.len) % 2^64 ∧
      (countStep e.rkey s).riu = q.2.iu ∧
      (countStep e.rkey s).ius = s.ius++q.1.map Entry.iu ∧
      (countStep e.rkey s).nRdma = (s.nRdma+q.1.length) % 2^8 := by
  obtain ⟨j, dmaLen, next, heq, hat'⟩ := Count.consume_whole hat hpos hle hr
  have hcounter := hat.counter
  have hgoes : (decide (seg.len < s.rsize) = true ∧
      (e.add ⟨seg.addr, seg.len, lkey⟩).sges.length = srptDefSgPerWqe) ↔
      0 < s.rsize-seg.len ∧ e.sges.length+1 = srptDefSgPerWqe := by
    simp only [Entry.add, List.length_append, List.length_singleton, decide_eq_true_eq]
    omega
  rw [heq] at hat'
  simp only [Entry.roll, hgoes] at hq
  simp only [countStep, heq, hriu, Entry.iu]
  split_ifs at hq ⊢ with hroll
  · cases hq
    refine ⟨⟨hat'.tsize, hat'.small, hat'.here, Nat.mod_lt _ (by decide)⟩, rfl, rfl, rfl, ?_, rfl⟩
    simp [Count.close, Entry.iu, Entry.add]
  · cases hq
    refine ⟨⟨hat'.tsize, hat'.small, hat'.here, hat'.counter⟩, rfl, rfl, ?_, ?_, ?_⟩
    · simp [Entry.add]
    · simp
    · exact (Nat.mod_eq_of_lt hcounter).symm

/-- The inner loop of the first pass counts the pieces of the schedule. -/
theorem count_cut (lkey : ℕ) (segs : List Seg) : ∀ (fuel : ℕ) (s : Count) (e : Entry),
    s.At count segs → 0 < (segLens segs).sum → 0 < s.rsize → s.rsize < 2^32 →
    s.riu = e.iu → segs.length < fuel →
    ∃ s', whileLoop Count.more (countStep e.rkey) fuel s = some s' ∧
      Counted count s (cut lkey segs s.rsize s.raddr e) s' := by
  induction segs with
  | nil =>
      intro fuel s e _ hpos
      cases hpos
  | cons seg segs ih =>
      intro fuel s e hat hpos hr hr' hriu hfuel
      obtain ⟨fuel, rfl⟩ : ∃ n, fuel = n+1 := ⟨fuel-1, by omega⟩
      rw [List.length_cons] at hfuel
      have hcond : s.more = true := by
        rw [Count.more, hat.tsize]
        simp only [hr, hpos, decide_true, Bool.and_self]
      rw [whileLoop_step hcond]
      by_cases hle : seg.len ≤ s.rsize
      · simp only [cut, if_pos hle]
        generalize hq : (e.add ⟨seg.addr, seg.len, lkey⟩).roll ((s.raddr+seg.len) % 2^64)
          (seg.len < s.rsize) = q
        have hrkey : q.2.rkey = e.rkey := by
          rw [← hq, Entry.roll_rkey]
          rfl
        obtain ⟨hat', hrsize, hraddr, hriu', hius, hnRdma⟩ :=
          countStep_whole hat hpos hle hr' hriu lkey hq
        generalize countStep e.rkey s = s₁ at hat' hrsize hraddr hriu' hius hnRdma
        have hlast : ∀ rest, s₁.At count rest → Counted count s (q.1++[q.2], rest) s₁ := by
          intro rest hrest
          refine ⟨hrest, ?_, ?_⟩
          · simp [Count.close, hius, hriu']
          · simp [Count.close, hnRdma, Nat.add_assoc]
        by_cases hsum : (segLens segs).sum = 0
        · have htsize : s₁.tsize = 0 := by rw [hat'.tsize, hsum]
          rw [if_pos hsum, Count.exit (.inr htsize) (by omega)]
          exact ⟨s₁, rfl, hlast [] (.done htsize hat'.counter)⟩
        rw [if_neg hsum]
        by_cases hend : s.rsize = seg.len
        · rw [if_pos hend, Count.exit (.inl (by omega)) (by omega)]
          exact ⟨s₁, rfl, hlast segs hat'⟩
        rw [if_neg hend]
        obtain ⟨s', hloop, hrest, hius', hnRdma'⟩ := ih fuel s₁ q.2 hat' (by omega) (by omega)
          (by omega) hriu' (by omega)
        rw [hrkey] at hloop
        rw [hrsize, hraddr] at hrest hius' hnRdma'
        refine ⟨s', hloop, hrest, ?_, ?_⟩
        · simp [hius', hius]
        · simp [hnRdma', hnRdma, Nat.add_assoc]
      · obtain ⟨heq, hat'⟩ := Count.consume_part hat hr (by omega) ((seg.addr+s.rsize) % 2^64)
        have hstep : countStep e.rkey s =
            { s.consume with riu := (e.add ⟨seg.addr, s.rsize, lkey⟩).iu } := by
          simp [countStep, heq, hriu, Entry.iu, Entry.add]
        rw [hstep, Count.exit (by simp [heq]) (by omega), cut, if_neg hle]
        refine ⟨_, rfl, ⟨hat'.tsize, hat'.small, hat'.here, hat'.counter⟩, ?_, ?_⟩
        · simp [Count.close, heq]
        · simp [Count.close, heq]

theorem cut_length_le (lkey : ℕ) (segs : List Seg) : ∀ r raddr e,
    (cut lkey segs r raddr e).2.length ≤ segs.length := by
  induction segs with
  | nil => simp [cut]
  | cons seg segs ih =>
      intro r raddr e
      simp only [cut]
      split_ifs
      · simp
      · simp
      · have hrest := ih (r-seg.len) ((raddr+seg.len) % 2^64)
          ((e.add ⟨seg.addr, seg.len, lkey⟩).roll ((raddr+seg.len) % 2^64) (seg.len < r)).2
        simp only [List.length_cons]
        omega
      · simp

/-- The first pass counts the pieces of the schedule. -/
theorem countBufs_schedule (lkey : ℕ) {fuel : ℕ} (dbs : List RemoteBuf)
    (hdbs : ∀ db ∈ dbs, 0 < db.len ∧ db.len < 2^32) : ∀ (segs : List Seg) (s : Count),
    s.At count segs → segs.length < fuel →
    ∃ s', countBufs fuel count dbs s = some s' ∧
      s'.ius = s.ius++(schedule lkey dbs segs).map Entry.iu ∧
      s'.nRdma = (s.nRdma+(schedule lkey dbs segs).length) % 2^8 := by
  induction dbs with
  | nil =>
      intro segs s hat _
      refine ⟨s, rfl, by simp [schedule], ?_⟩
      exact (Nat.mod_eq_of_lt hat.counter).symm
  | cons db dbs ih =>
      intro segs s hat hfuel
      by_cases hsum : (segLens segs).sum = 0
      · have htsize : s.tsize = 0 := by rw [hat.tsize, hsum]
        refine ⟨s, ?_, by simp [schedule, hsum], ?_⟩
        · simp [countBufs, htsize]
        · simpa [schedule, hsum] using (Nat.mod_eq_of_lt hat.counter).symm
      · have hj := (hat.here (by omega)).1
        have hgo : s.j < count ∧ 0 < s.tsize := by
          rw [hat.tsize]
          omega
        obtain ⟨hlen, hlen'⟩ := hdbs db List.mem_cons_self
        obtain ⟨s₁, hloop, hcounted⟩ := count_cut lkey segs fuel
          { s with rsize := db.len, raddr := db.va, riu := ⟨db.va, db.key, 0⟩ }
          ⟨db.va, db.key, []⟩ ⟨hat.tsize, hat.small, hat.here, hat.counter⟩ (by omega) hlen hlen'
          rfl hfuel
        have hat₁ := hcounted.at_rest
        have hshort := cut_length_le lkey segs db.len db.va ⟨db.va, db.key, []⟩
        obtain ⟨s', hrest, hius, hnRdma⟩ := ih (fun db h => hdbs db (List.mem_cons_of_mem _ h))
          _ s₁.close ⟨hat₁.tsize, hat₁.small, hat₁.here, Nat.mod_lt _ (by decide)⟩
          (Nat.lt_of_le_of_lt hshort hfuel)
        refine ⟨s', ?_, ?_, ?_⟩
        · rw [countBufs, if_pos hgo, countBuf, hloop]
          exact hrest
        · rw [hius, hcounted.ius]
          simp [schedule, hsum]
        · rw [hnRdma, hcounted.nRdma]
          simp [schedule, hsum, Nat.add_assoc]

end

/-- The second pass is at the segments `segs`. -/
structure Fill.At (s : Fill) (count : ℕ) (segs : List Seg) : Prop where
  tsize : s.tsize = (segLens segs).sum
  small : (segLens segs).sum < 2^32
  here : 0 < (segLens segs).sum →
    s.j+1+s.next.length = count ∧ segs = ⟨s.dmaAddr, s.dmaLen⟩::s.next.map segOf

section
variable {s : Fill} {count : ℕ} {seg : Seg} {segs : List Seg}

theorem Fill.At.head (hat : s.At count (seg::segs)) (hpos : 0 < (segLens (seg::segs)).sum) :
    s.j+1+s.next.length = count ∧ s.dmaAddr = seg.addr ∧ s.dmaLen = seg.len ∧
      segs = s.next.map segOf := by
  obtain ⟨hj, hsegs⟩ := hat.here hpos
  cases hsegs
  exact ⟨hj, rfl, rfl, rfl⟩

theorem Fill.At.done (htsize : s.tsize = 0) : s.At count [] :=
  ⟨htsize, by decide, fun h => absurd h (by decide)⟩

theorem Fill.consume_whole (lkey : ℕ) (hat : s.At count (seg::segs))
    (hpos : 0 < (segLens (seg::segs)).sum) (hle : seg.len ≤ s.rsize) (hr : s.rsize < 2^32) :
    ∃ j dmaLen dmaAddr next, s.consume lkey = { s with
        slots := s.slots.write s.riu s.sge ⟨seg.addr, seg.len, lkey⟩
        tsize := (segLens segs).sum, rsize := s.rsize-seg.len
        j := j, dmaLen := dmaLen, dmaAddr := dmaAddr, next := next } ∧
      (s.consume lkey).At count segs := by
  obtain ⟨hj, haddr, hlen, hnext⟩ := hat.head hpos
  have hsmall := hat.small
  have htsize := hat.tsize
  rw [segLens_cons, List.sum_cons] at hsmall htsize
  have hsub : sub32 s.tsize seg.len = (segLens segs).sum := by
    rw [sub32_of_le (by omega) (by omega)]
    omega
  have hlength : (if s.tsize < seg.len then s.tsize else seg.len) = seg.len :=
    if_neg (by omega)
  simp only [Fill.consume, hlen, haddr, if_pos hle, hsub, sub32_of_le hle hr, hlength]
  by_cases hmore : 0 < (segLens segs).sum
  · rw [if_pos hmore]
    cases hs : s.next with
    | nil =>
        rw [hnext, hs] at hmore
        cases hmore
    | cons sg next =>
        rw [hs] at hnext hj
        have hj' : s.j+1+1+next.length = count := by
          rw [← hj, List.length_cons]
          omega
        exact ⟨_, _, _, _, rfl, rfl, by omega, fun _ => ⟨hj', hnext⟩⟩
  · rw [if_neg hmore]
    exact ⟨_, _, _, _, rfl, rfl, by omega, fun h => absurd h hmore⟩

theorem Fill.consume_part (lkey : ℕ) (hat : s.At count (seg::segs)) (hr : 0 < s.rsize)
    (hlt : s.rsize < seg.len) :
    s.consume lkey = { s with
        slots := s.slots.write s.riu s.sge ⟨seg.addr, s.rsize, lkey⟩
        tsize := (segLens (seg::segs)).sum-s.rsize, dmaLen := seg.len-s.rsize
        dmaAddr := (seg.addr+s.rsize) % 2^64, rsize := 0 } ∧
      (s.consume lkey).At count (⟨(seg.addr+s.rsize) % 2^64, seg.len-s.rsize⟩::segs) := by
  have hpos : 0 < (segLens (seg::segs)).sum := by simp; omega
  obtain ⟨hj, haddr, hlen, hnext⟩ := hat.head hpos
  have hsmall := hat.small
  have htsize := hat.tsize
  rw [segLens_cons, List.sum_cons] at hsmall htsize
  have hsub : sub32 s.tsize s.rsize = (segLens (seg::segs)).sum-s.rsize := by
    rw [sub32_of_le (by omega) (by omega), hat.tsize]
  have hsub' : sub32 s.dmaLen s.rsize = seg.len-s.rsize := by
    rw [hlen, sub32_of_le (by omega) (by omega)]
  have hlength : (if s.tsize < s.rsize then s.tsize else s.rsize) = s.rsize :=
    if_neg (by omega)
  have heq : s.consume lkey = { s with
      slots := s.slots.write s.riu s.sge ⟨seg.addr, s.rsize, lkey⟩
      tsize := (segLens (seg::segs)).sum-s.rsize, dmaLen := seg.len-s.rsize
      dmaAddr := (seg.addr+s.rsize) % 2^64, rsize := 0 } := by
    rw [Fill.consume, if_neg (by omega), hsub, hsub', haddr, hlength]
  refine ⟨heq, ?_⟩
  rw [heq]
  constructor
  · simp only [segLens_cons, List.sum_cons]
    omega
  · simp only [segLens_cons, List.sum_cons]
    omega
  · intro _
    exact ⟨hj, congrArg (List.cons _) hnext⟩

end

/-- The slots in which the pieces of some entries have been stored. -/
def table (es : List Entry) : Slots := fun i k => (es[i]?).bind fun e => e.sges[k]?

theorem table_add (es : List Entry) (e : Entry) (sge : Sge) :
    Slots.write (table (es++[e])) es.length e.sges.length sge = table (es++[e.add sge]) := by
  funext i k
  simp only [Slots.write, table]
  rcases Nat.lt_trichotomy i es.length with hi | hi | hi
  · rw [if_neg (by omega), List.getElem?_append_left hi, List.getElem?_append_left hi]
  · cases hi
    simp only [List.getElem?_concat_length, Option.bind_some, Entry.add]
    rcases Nat.lt_trichotomy k e.sges.length with hk | hk | hk
    · rw [if_neg (by omega), List.getElem?_append_left hk]
    · simp [hk]
    · rw [if_neg (by omega), List.getElem?_eq_none (by omega),
        List.getElem?_eq_none (by simp; omega)]
  · rw [if_neg (by omega), List.getElem?_eq_none (by simp; omega),
      List.getElem?_eq_none (by simp; omega)]

theorem table_begin (es : List Entry) (raddr rkey : ℕ) :
    table (es++[⟨raddr, rkey, []⟩]) = table es := by
  funext i k
  simp only [table]
  rcases Nat.lt_trichotomy i es.length with hi | hi | hi
  · rw [List.getElem?_append_left hi]
  · rw [hi, List.getElem?_concat_length, List.getElem?_eq_none (Nat.le_refl _)]
    rfl
  · rw [List.getElem?_eq_none (by simp; omega), List.getElem?_eq_none (by omega)]

/-- An entry that is to be filled gets at least one more piece. -/
theorem cut_head (lkey : ℕ) (segs : List Seg) : ∀ r raddr e, 0 < (segLens segs).sum →
    ∃ e' es, (cut lkey segs r raddr e).1 = e'::es ∧ e.sges.length < e'.sges.length := by
  induction segs with
  | nil =>
      intro r raddr e hpos
      cases hpos
  | cons seg segs ih =>
      intro r raddr e hpos
      have hadd : ∀ sge, e.sges.length < (e.add sge).sges.length := by simp [Entry.add]
      simp only [cut]
      by_cases hle : seg.len ≤ r
      · rw [if_pos hle, Entry.roll]
        split_ifs with hroll hsum hend hsum hend
        · exact ⟨_, _, rfl, hadd _⟩
        · exact ⟨_, _, rfl, hadd _⟩
        · exact ⟨_, _, rfl, hadd _⟩
        · exact ⟨_, _, rfl, hadd _⟩
        · exact ⟨_, _, rfl, hadd _⟩
        · obtain ⟨e', es, hcut, hlt⟩ := ih (r-seg.len) ((raddr+seg.len) % 2^64)
            (e.add ⟨seg.addr, seg.len, lkey⟩) (by omega)
          exact ⟨e', es, hcut, Nat.lt_trans (hadd _) hlt⟩
      · rw [if_neg hle]
        exact ⟨_, _, rfl, hadd _⟩

theorem sgeCnt_entries (es es' : List Entry) (e : Entry) (post : List RdmaIu) :
    sgeCnt ((es++e::es').map Entry.iu++post) es.length = e.sges.length := by
  simp [sgeCnt, Entry.iu]

/-- What the inner loop of the second pass makes of the slots: `es` are the entries before. -/
structure Filled (count : ℕ) (es : List Entry) (out : List Entry × List Seg) (s' : Fill) :
    Prop where
  at_rest : s'.At count out.2
  slots : s'.slots = table (es++out.1)
  riu : 0 < (segLens out.2).sum → s'.riu+1 = es.length+out.1.length

/-- The second pass is at entry `e`, behind the entries `es`. -/
structure Fill.On (s : Fill) (es : List Entry) (e : Entry) : Prop where
  riu : s.riu = es.length
  sge : s.sge = e.sges.length
  k : s.k = e.sges.length
  slots : s.slots = table (es++[e])

section
variable {s : Fill} {count : ℕ} {seg : Seg} {segs : List Seg} {es : List Entry} {e : Entry}
  {ius post : List RdmaIu}

theorem fillStep_exit {fuel lkey : ℕ}
    (h : ¬ (0 < (s.consume lkey).rsize ∧ 0 < (s.consume lkey).tsize)) (hfuel : 0 < fuel) :
    whileLoop Fill.more (fillStep ius lkey) fuel (fillStep ius lkey s) =
      some { s.consume lkey with k := (s.consume lkey).k+1 } := by
  have hstop : fillStep ius lkey s = { s.consume lkey with k := (s.consume lkey).k+1 } := by
    simp only [fillStep, h, and_false, if_false]
  rw [hstop]
  apply whileLoop_exit _ hfuel
  simpa [Fill.more] using h

theorem fillStep_next {lkey : ℕ} (h : 0 < (s.consume lkey).rsize ∧ 0 < (s.consume lkey).tsize)
    (hk : (s.consume lkey).k+1 = sgeCnt ius (s.consume lkey).riu) :
    fillStep ius lkey s =
      { s.consume lkey with riu := (s.consume lkey).riu+1, sge := 0, k := 0 } := by
  simp only [fillStep, h, hk, and_self, if_true]

theorem fillStep_same {lkey : ℕ} (h : 0 < (s.consume lkey).rsize ∧ 0 < (s.consume lkey).tsize)
    (hk : (s.consume lkey).k+1 ≠ sgeCnt ius (s.consume lkey).riu) :
    fillStep ius lkey s =
      { s.consume lkey with k := (s.consume lkey).k+1, sge := (s.consume lkey).sge+1 } := by
  simp only [fillStep, h, hk, false_and, if_false, and_self, if_true]

/-- The next entry has no pieces when it is begun. -/
theorem table_roll (es : List Entry) (e : Entry) (raddr : ℕ) (goesOn : Bool) :
    table (es++((e.roll raddr goesOn).1++[(e.roll raddr goesOn).2])) = table (es++[e]) := by
  unfold Entry.roll
  split_ifs
  · rw [← List.append_assoc, table_begin]
  · rfl

/-- The head of an iteration that takes a whole segment adds it to the entry. -/
theorem Fill.consume_on (lkey : ℕ) (hat : s.At count (seg::segs))
    (hpos : 0 < (segLens (seg::segs)).sum) (hle : seg.len ≤ s.rsize) (hr : s.rsize < 2^32)
    (hon : s.On es e) :
    (s.consume lkey).At count segs ∧ (s.consume lkey).rsize = s.rsize-seg.len ∧
      (s.consume lkey).riu = es.length ∧ (s.consume lkey).sge = e.sges.length ∧
      (s.consume lkey).k = e.sges.length ∧
      (s.consume lkey).slots = table (es++[e.add ⟨seg.addr, seg.len, lkey⟩]) := by
  obtain ⟨j, dmaLen, dmaAddr, next, heq, hat'⟩ := Fill.consume_whole lkey hat hpos hle hr
  refine ⟨hat', ?_⟩
  rw [heq]
  refine ⟨rfl, hon.riu, hon.sge, hon.k, ?_⟩
  simp only [hon.slots, hon.riu, hon.sge, table_add]

/-- The first pass has counted as many pieces for an entry as it can hold, or more than it has
so far. -/
theorem counted_iff {lkey r raddr : ℕ} {q : List Entry × Entry}
    (hius : ius = (es++(q.1++(cut lkey segs r raddr q.2).1)).map Entry.iu++post)
    (hpos : 0 < (segLens segs).sum) (hq : e.roll raddr true = q) :
    e.sges.length = sgeCnt ius es.length ↔ e.sges.length = srptDefSgPerWqe := by
  by_cases hfull : e.sges.length = srptDefSgPerWqe
  · have hq' : q = ([e], ⟨raddr, e.rkey, []⟩) := hq.symm.trans (if_pos ⟨rfl, hfull⟩)
    rw [hius, hq', List.singleton_append, sgeCnt_entries]
    exact iff_of_true rfl hfull
  · have hq' : q = ([], e) := hq.symm.trans (if_neg fun h => hfull h.2)
    obtain ⟨e', es', hcut, hgrows⟩ := cut_head lkey segs r raddr e hpos
    rw [hius, hq', List.nil_append, hcut, sgeCnt_entries]
    exact iff_of_false (by omega) hfull

theorem fillStep_whole {lkey raddr : ℕ} {q : List Entry × Entry} (hat : s.At count (seg::segs))
    (hpos : 0 < (segLens segs).sum) (hlt : seg.len < s.rsize) (hr : s.rsize < 2^32)
    (hon : s.On es e) (hq : (e.add ⟨seg.addr, seg.len, lkey⟩).roll raddr true = q)
    (hius : ius = (es++(q.1++(cut lkey segs (s.rsize-seg.len) raddr q.2).1)).map Entry.iu++post) :
    (fillStep ius lkey s).At count segs ∧ (fillStep ius lkey s).rsize = s.rsize-seg.len ∧
      (fillStep ius lkey s).On (es++q.1) q.2 := by
  have hpos' : 0 < (segLens (seg::segs)).sum := by simp; omega
  obtain ⟨hat', hrsize, hriu, hsge, hk, hslots⟩ :=
    Fill.consume_on lkey hat hpos' (Nat.le_of_lt hlt) hr hon
  have hgo : 0 < (s.consume lkey).rsize ∧ 0 < (s.consume lkey).tsize := by
    rw [hrsize, hat'.tsize]
    omega
  have hlen : (e.add ⟨seg.addr, seg.len, lkey⟩).sges.length = e.sges.length+1 := by
    simp [Entry.add]
  have hcnt := counted_iff hius hpos hq
  rw [hlen] at hcnt
  by_cases hfull : e.sges.length+1 = srptDefSgPerWqe
  · have hq' := hq.symm.trans (if_pos ⟨rfl, hlen.trans hfull⟩)
    rw [fillStep_next hgo (by rw [hk, hriu, hcnt.mpr hfull]), hq']
    refine ⟨⟨hat'.tsize, hat'.small, hat'.here⟩, hrsize, ?_, rfl, rfl, ?_⟩
    · simp [hriu]
    · rw [table_begin]
      exact hslots
  · have hq' := hq.symm.trans (if_neg fun h => hfull (hlen.symm.trans h.2))
    rw [fillStep_same hgo (by rw [hk, hriu]; exact fun h => hfull (hcnt.mp h)), hq']
    refine ⟨⟨hat'.tsize, hat'.small, hat'.here⟩, hrsize, ?_, ?_, ?_, ?_⟩
    · simp [hriu]
    · rw [hlen, ← hsge]
    · rw [hlen, ← hk]
    · rw [List.append_nil]
      exact hslots

/-- The inner loop of the second pass stores the pieces of the schedule. -/
theorem fill_cut (lkey : ℕ) (segs : List Seg) : ∀ (fuel : ℕ) (s : Fill) (raddr : ℕ)
    (es : List Entry) (e : Entry),
    s.At count segs → 0 < (segLens segs).sum → 0 < s.rsize → s.rsize < 2^32 → s.On es e →
    ius = (es++(cut lkey segs s.rsize raddr e).1).map Entry.iu++post → segs.length < fuel →
    ∃ s', whileLoop Fill.more (fillStep ius lkey) fuel s = some s' ∧
      Filled count es (cut lkey segs s.rsize raddr e) s' := by
  induction segs with
  | nil =>
      intro fuel s raddr es e _ hpos
      cases hpos
  | cons seg segs ih =>
      intro fuel s raddr es e hat hpos hr hr' hon hius hfuel
      obtain ⟨fuel, rfl⟩ : ∃ n, fuel = n+1 := ⟨fuel-1, by omega⟩
      rw [List.length_cons] at hfuel
      have hcond : s.more = true := by
        rw [Fill.more, hat.tsize]
        simp only [hr, hpos, decide_true, Bool.and_self]
      rw [whileLoop_step hcond]
      by_cases hle : seg.len ≤ s.rsize
      · obtain ⟨hat', hrsize, hriu, _, _, hslots⟩ := Fill.consume_on lkey hat hpos hle hr' hon
        have htsize := hat'.tsize
        have hroll := table_roll es (e.add ⟨seg.addr, seg.len, lkey⟩)
          ((raddr+seg.len) % 2^64) (seg.len < s.rsize)
        simp only [cut, if_pos hle] at hius ⊢
        by_cases hsum : (segLens segs).sum = 0
        · rw [fillStep_exit (by omega) (by omega), if_pos hsum]
          exact ⟨_, rfl, .done (htsize.trans hsum), hslots.trans hroll.symm,
            fun h => absurd h (Nat.lt_irrefl 0)⟩
        rw [if_neg hsum] at hius ⊢
        by_cases hend : s.rsize = seg.len
        · rw [fillStep_exit (by omega) (by omega), if_pos hend]
          refine ⟨_, rfl, ⟨hat'.tsize, hat'.small, hat'.here⟩, hslots.trans hroll.symm, ?_⟩
          intro _
          simp [Entry.roll, hend, hriu]
        have hlt : seg.len < s.rsize := by omega
        rw [if_neg hend, decide_eq_true hlt] at hius ⊢
        generalize hq : (e.add ⟨seg.addr, seg.len, lkey⟩).roll ((raddr+seg.len) % 2^64) true = q
          at hius ⊢
        obtain ⟨hat₁, hrsize₁, hon₁⟩ := fillStep_whole hat (by omega) hlt hr' hon hq hius
        generalize fillStep ius lkey s = s₁ at hat₁ hrsize₁ hon₁
        rw [← hrsize₁, ← List.append_assoc] at hius
        obtain ⟨s', hloop, hfilled⟩ := ih fuel s₁ ((raddr+seg.len) % 2^64) (es++q.1) q.2 hat₁
          (by omega) (by omega) (by omega) hon₁ hius (by omega)
        rw [hrsize₁] at hfilled
        refine ⟨s', hloop, hfilled.at_rest, ?_, ?_⟩
        · rw [hfilled.slots, List.append_assoc]
        · intro hrest
          rw [hfilled.riu hrest, List.length_append, List.length_append, Nat.add_assoc]
      · obtain ⟨heq, hat'⟩ := Fill.consume_part lkey hat hr (by omega)
        rw [fillStep_exit (by simp [heq]) (by omega), cut, if_neg hle]
        refine ⟨_, rfl, ⟨hat'.tsize, hat'.small, hat'.here⟩, ?_, ?_⟩
        · simp only [heq, hon.slots, hon.riu, hon.sge, table_add]
        · intro _
          simp only [heq, hon.riu, List.length_singleton]

/-- The second pass stores the pieces of the schedule. -/
theorem fillBufs_schedule (lkey : ℕ) {fuel : ℕ} (dbs : List RemoteBuf)
    (hdbs : ∀ db ∈ dbs, 0 < db.len ∧ db.len < 2^32) : ∀ (segs : List Seg) (s : Fill)
    (es : List Entry), s.At count segs → (0 < (segLens segs).sum → s.riu = es.length) →
    s.slots = table es → ius = (es++schedule lkey dbs segs).map Entry.iu++post →
    segs.length < fuel →
    ∃ s', fillBufs fuel count ius lkey dbs s = some s' ∧
      s'.slots = table (es++schedule lkey dbs segs) := by
  induction dbs with
  | nil =>
      intro segs s es _ _ hslots _ _
      exact ⟨s, rfl, by simpa [schedule] using hslots⟩
  | cons db dbs ih =>
      intro segs s es hat hriu hslots hius hfuel
      by_cases hsum : (segLens segs).sum = 0
      · have htsize : s.tsize = 0 := by rw [hat.tsize, hsum]
        refine ⟨s, ?_, by simpa [schedule, hsum] using hslots⟩
        simp [fillBufs, htsize]
      · have hj := (hat.here (by omega)).1
        have hgo : s.j < count ∧ 0 < s.tsize := by
          rw [hat.tsize]
          omega
        obtain ⟨hlen, hlen'⟩ := hdbs db List.mem_cons_self
        simp only [schedule, if_neg hsum, ← List.append_assoc] at hius ⊢
        obtain ⟨s₁, hloop, hfilled⟩ := fill_cut lkey segs fuel
          { s with rsize := db.len, sge := 0, k := 0 } db.va es ⟨db.va, db.key, []⟩
          ⟨hat.tsize, hat.small, hat.here⟩ (by omega) hlen hlen'
          ⟨hriu (by omega), rfl, rfl, by rw [table_begin, hslots]⟩
          (hius.trans (by rw [List.map_append, List.append_assoc])) hfuel
        have hat₁ := hfilled.at_rest
        have hshort := cut_length_le lkey segs db.len db.va ⟨db.va, db.key, []⟩
        obtain ⟨s', hrest, hslots'⟩ := ih (fun db h => hdbs db (List.mem_cons_of_mem _ h))
          _ { s₁ with riu := s₁.riu+1 } (es++(cut lkey segs db.len db.va ⟨db.va, db.key, []⟩).1)
          ⟨hat₁.tsize, hat₁.small, hat₁.here⟩
          (fun h => by rw [List.length_append]; exact hfilled.riu h) hfilled.slots hius
          (Nat.lt_of_le_of_lt hshort hfuel)
        refine ⟨s', ?_, hslots'⟩
        rw [fillBufs, if_pos hgo, fillBuf, hloop]
        exact hrest

end

section
variable {sgs : List Sg} {ioctx : SendIoctx}

/-- An I/O context as `srpt_get_send_ioctx` hands it out, for a command whose local segments
are as long as its data. -/
structure Fresh (sgs : List Sg) (ioctx : SendIoctx) : Prop where
  rdmaIus : ioctx.rdmaIus = none
  nRdma : ioctx.nRdma = 0
  rbufs : ∀ db ∈ ioctx.rbufs, 0 < db.len ∧ db.len < 2^32
  dataLength : (segLens (sgs.map segOf)).sum = ioctx.dataLength
  small : ioctx.dataLength < 2^32

/-- The context after a mapping that follows the schedule `es`. -/
def SendIoctx.mapped (ioctx : SendIoctx) (count : ℕ) (es : List Entry) : SendIoctx :=
  { ioctx with
    rdmaIus := some (es.map Entry.iu)
    slots := table es
    nRdmaIus := ((count+srptDefSgPerWqe-1) / srptDefSgPerWqe+ioctx.rbufs.length) % 2^16
    nRdma := es.length % 2^8 }

/-- The mapping follows the schedule: with enough iterations it ends, and unless an allocation
fails the entries and the slots are those of the schedule. -/
theorem srptMapSgToIbSge_schedule {fuel : ℕ} (lkey : ℕ) (allocs : Allocs)
    (hfresh : Fresh sgs ioctx) (hsgs : sgs ≠ []) (hfuel : sgs.length < fuel) :
    srptMapSgToIbSge fuel lkey allocs sgs ioctx = some
      (if allocs.kzalloc ∧
          ∀ i < (schedule lkey ioctx.rbufs (sgs.map segOf)).length, allocs.kmalloc i then
        .ok (ioctx.mapped sgs.length (schedule lkey ioctx.rbufs (sgs.map segOf)))
      else .error (-enomem)) := by
  cases sgs with
  | nil => cases hsgs rfl
  | cons sg next =>
      have hsmall : (segLens ((sg::next).map segOf)).sum < 2^32 := by
        rw [hfresh.dataLength]
        exact hfresh.small
      have hcount : (sg::next).length = 0+1+next.length := by
        rw [List.length_cons]
        omega
      obtain ⟨c, hc, hius, hnRdma⟩ := countBufs_schedule lkey ioctx.rbufs hfresh.rbufs
        ((sg::next).map segOf)
        { tsize := ioctx.dataLength, dmaLen := sg.dmaLen, next := next, nRdma := ioctx.nRdma }
        ⟨hfresh.dataLength.symm, hsmall, fun _ => ⟨hcount.symm, by simp [segLens, segOf]⟩,
          by simp [hfresh.nRdma]⟩ (by simpa using hfuel)
      obtain ⟨f, hf, hslots⟩ := fillBufs_schedule lkey ioctx.rbufs hfresh.rbufs
        ((sg::next).map segOf)
        { tsize := ioctx.dataLength, dmaLen := sg.dmaLen, dmaAddr := sg.dmaAddress, next := next }
        [] ⟨hfresh.dataLength.symm, hsmall, fun _ => ⟨hcount.symm, rfl⟩⟩ (fun _ => rfl)
        (by funext i k; rfl) (hius.trans (List.append_nil _).symm) (by simpa using hfuel)
      rw [List.nil_append] at hslots
      rw [hfresh.nRdma] at hc hnRdma
      have hany : ((List.range c.ius.length).any fun i => !allocs.kmalloc i) = true ↔
          ¬ ∀ i < (schedule lkey ioctx.rbufs ((sg::next).map segOf)).length,
            allocs.kmalloc i = true := by
        simp [hius]
      simp only [srptMapSgToIbSge, hfresh.rdmaIus, hfresh.nRdma, hc, hf, Option.isSome_none,
        Bool.false_and, Bool.not_false, Bool.true_and, Bool.false_eq_true, if_false, hany]
      cases allocs.kzalloc with
      | false => rfl
      | true =>
          simp only [Bool.not_true, Bool.false_eq_true, if_false, true_and]
          split_ifs
          · rw [hius, hslots, hnRdma, Nat.zero_add]
            rfl
          · rfl

end

end IbSrp.TargetRdma
