import IbSrp.ChannelSystem

/-!
# Request slots and the commands they carry

A request slot is free, or carries a command, or has been claimed by someone who
will free it. The abstract machine `Slots` says only this. Its moves are: a slot
is taken for a new command, a command is claimed, a claimed request is released
and its command is done, and a command is refused, possibly after a slot was
taken and put back.

The invariant is that the slots on the free list, the slots that carry a command
and the claimed ones are together a permutation of the ring, and that the
commands that are out or done are all different. Every step of the channel is a
move or changes nothing here.
-/
namespace IbSrp.SlotOwnership
open LabelledRuns MemoryRegistration MappingCoverage MappingResults Channel ChannelSystem
open SlotEvent

/-- Who has which slot. `busy` and `claimed` give the command of a slot. -/
@[ext] structure Slots where
  free : List ℕ
  busy : ℕ → Option ℕ
  claimed : List (ℕ × ℕ)
  nextId : ℕ
  accepted : List ℕ
  done : List ℕ
  log : List SlotEvent

inductive Move (a : Slots) : Slots → Prop
  | skip : Move a a
  | refuse (completed : Bool) : Move a
      { a with nextId := a.nextId+1, done := a.done++(if completed then [a.nextId] else []) }
  | bounce {i : ℕ} {rest : List ℕ} (completed : Bool) : a.free = i::rest → Move a
      { a with busy := Function.update a.busy i none, nextId := a.nextId+1,
               done := a.done++(if completed then [a.nextId] else []),
               log := a.log++[took i, put i] }
  | take {i : ℕ} {rest : List ℕ} : a.free = i::rest → Move a
      { a with free := rest, busy := Function.update a.busy i (some a.nextId),
               nextId := a.nextId+1, accepted := a.accepted++[a.nextId],
               log := a.log++[took i] }
  | claim {i c : ℕ} : a.busy i = some c → Move a
      { a with busy := Function.update a.busy i none, claimed := a.claimed++[(i, c)] }
  | release {k i c : ℕ} : a.claimed[k]? = some (i, c) → Move a
      { a with free := a.free++[i], claimed := a.claimed.eraseIdx k, done := a.done++[c],
               log := a.log++[put i] }

/-- The slots that carry a command, each with its command. -/
def busyList {α : Type} (n : ℕ) (busy : ℕ → Option α) : List (ℕ × α) :=
  (List.range n).filterMap fun i => (busy i).map fun c => (i, c)

/-- The slots that are not free, each with its command. -/
def Slots.out (n : ℕ) (a : Slots) : List (ℕ × ℕ) := busyList n a.busy ++ a.claimed

/-- A slot that is taken is put back at most once before it is taken again. -/
def Balanced (log : List SlotEvent) : Prop :=
  ∀ p, p <+: log → ∀ i, p.count (put i) ≤ p.count (took i) ∧
    p.count (took i) ≤ p.count (put i)+1

structure Owned (n : ℕ) (a : Slots) : Prop where
  busy_lt : ∀ i c, a.busy i = some c → i < n
  slots : (a.free ++ (a.out n).map Prod.fst).Perm (List.range n)
  commands : ((a.out n).map Prod.snd ++ a.done).Nodup
  accepted_nodup : a.accepted.Nodup
  accepted_iff : ∀ c, c ∈ (a.out n).map Prod.snd ↔ c ∈ a.accepted ∧ c ∉ a.done
  accepted_lt : ∀ c ∈ a.accepted, c < a.nextId
  done_lt : ∀ c ∈ a.done, c < a.nextId
  balanced : Balanced a.log
  counts : ∀ i, a.log.count (took i) = a.log.count (put i)+((a.out n).map Prod.fst).count i

theorem filterMap_update_perm {α : Type} {l : List ℕ} {f : ℕ → Option α} {i : ℕ} {c : α}
    (hl : l.Nodup) (hi : i ∈ l) (hf : f i = some c) :
    (l.filterMap fun j => (f j).map fun c => (j, c)).Perm
      ((i, c)::l.filterMap fun j => (Function.update f i none j).map fun c => (j, c)) := by
  induction l with
  | nil => cases hi
  | cons j l ih =>
      obtain ⟨hj, hl⟩ := List.nodup_cons.mp hl
      by_cases hij : j = i
      · subst hij
        have hsame : (l.filterMap fun k => (Function.update f j none k).map fun c => (k, c)) =
            l.filterMap fun k => (f k).map fun c => (k, c) := by
          apply List.filterMap_congr
          intro k hk
          have hkj : k ≠ j := fun h => hj (h ▸ hk)
          rw [Function.update_of_ne hkj]
        simp [hf, hsame]
      · have hi' : i ∈ l := (List.mem_cons.mp hi).resolve_left (fun h => hij h.symm)
        have := ih hl hi'
        rw [List.filterMap_cons, List.filterMap_cons, Function.update_of_ne hij]
        cases f j with
        | none => exact this
        | some d => exact (this.cons (j, d)).trans (List.Perm.swap _ _ _)

/-- Emptying slot `i` takes its entry out of the list of busy slots. -/
theorem busyList_update_none {α : Type} {n : ℕ} {busy : ℕ → Option α} {i : ℕ} {c : α} (hi : i < n)
    (h : busy i = some c) :
    (busyList n busy).Perm ((i, c)::busyList n (Function.update busy i none)) :=
  filterMap_update_perm List.nodup_range (List.mem_range.mpr hi) h

theorem busyList_update_some {α : Type} {n : ℕ} {busy : ℕ → Option α} {i : ℕ} (c : α) (hi : i < n)
    (h : busy i = none) :
    (busyList n (Function.update busy i (some c))).Perm ((i, c)::busyList n busy) := by
  have hp := busyList_update_none hi (Function.update_self i (some c) busy)
  rwa [Function.update_idem, ← h, Function.update_eq_self] at hp

@[simp] theorem count_took_took (log : List SlotEvent) (i j : ℕ) :
    (log++[took i]).count (took j) = log.count (took j)+(if i = j then 1 else 0) := by
  simp [List.count_append, List.count_singleton]

@[simp] theorem count_put_took (log : List SlotEvent) (i j : ℕ) :
    (log++[took i]).count (put j) = log.count (put j) := by
  simp [List.count_append]

@[simp] theorem count_took_put (log : List SlotEvent) (i j : ℕ) :
    (log++[put i]).count (took j) = log.count (took j) := by
  simp [List.count_append]

@[simp] theorem count_put_put (log : List SlotEvent) (i j : ℕ) :
    (log++[put i]).count (put j) = log.count (put j)+(if i = j then 1 else 0) := by
  simp [List.count_append, List.count_singleton]

theorem Balanced.append {log : List SlotEvent} {e : SlotEvent} (h : Balanced log)
    (hend : ∀ i, (log++[e]).count (put i) ≤ (log++[e]).count (took i) ∧
      (log++[e]).count (took i) ≤ (log++[e]).count (put i)+1) : Balanced (log++[e]) := by
  intro p hp
  rcases List.prefix_concat_iff.mp hp with rfl | hp
  · exact hend
  · exact h p hp

theorem Owned.out_nodup {n : ℕ} {a : Slots} (h : Owned n a) :
    ((a.out n).map Prod.fst).Nodup :=
  (List.nodup_append.mp (h.slots.nodup_iff.mpr List.nodup_range)).2.1

theorem Owned.count_le {n : ℕ} {a : Slots} (h : Owned n a) (i : ℕ) :
    ((a.out n).map Prod.fst).count i ≤ 1 :=
  List.nodup_iff_count_le_one.mp h.out_nodup i

theorem Owned.free_head {n i : ℕ} {a : Slots} {rest : List ℕ} (h : Owned n a)
    (hfree : a.free = i::rest) :
    i < n ∧ a.busy i = none ∧ ((a.out n).map Prod.fst).count i = 0 := by
  have hi : i < n := by
    apply List.mem_range.mp
    apply h.slots.mem_iff.mp
    simp [hfree]
  have hnot : i ∉ (a.out n).map Prod.fst := by
    have hnd := h.slots.nodup_iff.mpr List.nodup_range
    rw [hfree] at hnd
    intro hmem
    exact (List.nodup_append.mp hnd).2.2 i List.mem_cons_self i hmem rfl
  refine ⟨hi, ?_, List.count_eq_zero.mpr hnot⟩
  cases hb : a.busy i with
  | none => rfl
  | some c =>
      have hmem : (i, c) ∈ busyList n a.busy :=
        (busyList_update_none hi hb).mem_iff.mpr List.mem_cons_self
      exact (hnot (List.mem_map.mpr ⟨(i, c), List.mem_append_left _ hmem, rfl⟩)).elim

theorem Owned.balanced_took {n i : ℕ} {a : Slots} (h : Owned n a)
    (hzero : ((a.out n).map Prod.fst).count i = 0) : Balanced (a.log++[took i]) := by
  apply h.balanced.append
  intro j
  have hc := h.counts j
  have hle := h.count_le j
  rw [count_took_took, count_put_took]
  by_cases hij : i = j
  · rw [if_pos hij]
    subst hij
    omega
  · rw [if_neg hij]
    omega

theorem Owned.nextId_not_accepted {n : ℕ} {a : Slots} (h : Owned n a) : a.nextId ∉ a.accepted :=
  fun hmem => (h.accepted_lt _ hmem).ne rfl

theorem Owned.nextId_not_done {n : ℕ} {a : Slots} (h : Owned n a) : a.nextId ∉ a.done :=
  fun hmem => (h.done_lt _ hmem).ne rfl

/-- The next command is new, so it can join those in slots and those that are done. -/
theorem Owned.commands_cons {n : ℕ} {a : Slots} (h : Owned n a) :
    (a.nextId::((a.out n).map Prod.snd ++ a.done)).Nodup := by
  refine List.nodup_cons.mpr ⟨?_, h.commands⟩
  intro hmem
  cases List.mem_append.mp hmem with
  | inl hout => exact h.nextId_not_accepted ((h.accepted_iff _).mp hout).1
  | inr hdone => exact h.nextId_not_done hdone

theorem Owned.claim {n i c : ℕ} {a : Slots} (h : Owned n a) (hbusy : a.busy i = some c) :
    Owned n { a with busy := Function.update a.busy i none, claimed := a.claimed++[(i, c)] } := by
  set b : Slots :=
    { a with busy := Function.update a.busy i none, claimed := a.claimed++[(i, c)] }
  have hout : (b.out n).Perm (a.out n) := by
    have hp := busyList_update_none (h.busy_lt i c hbusy) hbusy
    have hmove : (b.out n).Perm ((i, c)::busyList n b.busy ++ a.claimed) := by
      change (busyList n b.busy ++ (a.claimed++[(i, c)])).Perm _
      rw [← List.append_assoc]
      exact List.perm_append_singleton _ _
    exact hmove.trans (hp.symm.append_right _)
  constructor
  · intro j d hj
    by_cases hij : j = i
    · rw [hij] at hj
      simp [b] at hj
    · change Function.update a.busy i none j = some d at hj
      rw [Function.update_of_ne hij] at hj
      exact h.busy_lt j d hj
  · exact (List.Perm.append_left _ (hout.map Prod.fst)).trans h.slots
  · exact ((hout.map Prod.snd).append_right _).nodup_iff.mpr h.commands
  · exact h.accepted_nodup
  · intro d
    rw [(hout.map Prod.snd).mem_iff]
    exact h.accepted_iff d
  · exact h.accepted_lt
  · exact h.done_lt
  · exact h.balanced
  · intro j
    rw [(hout.map Prod.fst).count_eq]
    exact h.counts j

theorem Owned.take {n i : ℕ} {a : Slots} {rest : List ℕ} (h : Owned n a)
    (hfree : a.free = i::rest) :
    Owned n { a with free := rest, busy := Function.update a.busy i (some a.nextId),
                     nextId := a.nextId+1, accepted := a.accepted++[a.nextId],
                     log := a.log++[took i] } := by
  set b : Slots :=
    { a with free := rest, busy := Function.update a.busy i (some a.nextId),
             nextId := a.nextId+1, accepted := a.accepted++[a.nextId], log := a.log++[took i] }
  obtain ⟨hi, hnone, hzero⟩ := h.free_head hfree
  have hout : (b.out n).Perm ((i, a.nextId)::a.out n) :=
    (busyList_update_some a.nextId hi hnone).append_right a.claimed
  have hfst := hout.map Prod.fst
  have hsnd := hout.map Prod.snd
  constructor
  · intro j d hj
    by_cases hij : j = i
    · exact hij ▸ hi
    · change Function.update a.busy i (some a.nextId) j = some d at hj
      rw [Function.update_of_ne hij] at hj
      exact h.busy_lt j d hj
  · have hslots := h.slots
    rw [hfree] at hslots
    exact ((List.Perm.append_left rest hfst).trans List.perm_middle).trans hslots
  · exact (hsnd.append_right _).nodup_iff.mpr h.commands_cons
  · exact List.nodup_append.mpr ⟨h.accepted_nodup, by simp, by
      rintro c hc d hd rfl
      exact h.nextId_not_accepted (List.mem_singleton.mp hd ▸ hc)⟩
  · intro c
    rw [hsnd.mem_iff]
    change c ∈ a.nextId::(a.out n).map Prod.snd ↔ c ∈ a.accepted++[a.nextId] ∧ c ∉ a.done
    rw [List.mem_cons, h.accepted_iff, List.mem_append, List.mem_singleton]
    constructor
    · rintro (rfl | ⟨hacc, hdone⟩)
      · exact ⟨Or.inr rfl, h.nextId_not_done⟩
      · exact ⟨Or.inl hacc, hdone⟩
    · rintro ⟨hacc | rfl, hdone⟩
      · exact Or.inr ⟨hacc, hdone⟩
      · exact Or.inl rfl
  · intro c hc
    rcases List.mem_append.mp hc with hc | hc
    · exact Nat.lt_succ_of_lt (h.accepted_lt c hc)
    · rw [List.mem_singleton.mp hc]
      exact Nat.lt_succ_self _
  · intro c hc
    exact Nat.lt_succ_of_lt (h.done_lt c hc)
  · exact h.balanced_took hzero
  · intro j
    have hc := h.counts j
    change (a.log++[took i]).count (took j) = (a.log++[took i]).count (put j)+_
    rw [hfst.count_eq, count_took_took, count_put_took, List.map_cons, List.count_cons]
    simp only [beq_iff_eq]
    omega

theorem Owned.release {n k i c : ℕ} {a : Slots} (h : Owned n a)
    (hk : a.claimed[k]? = some (i, c)) :
    Owned n { a with free := a.free++[i], claimed := a.claimed.eraseIdx k, done := a.done++[c],
                     log := a.log++[put i] } := by
  set b : Slots :=
    { a with free := a.free++[i], claimed := a.claimed.eraseIdx k, done := a.done++[c],
             log := a.log++[put i] }
  have hout : (a.out n).Perm ((i, c)::b.out n) :=
    (List.Perm.append_left _ (perm_eraseIdx hk)).trans List.perm_middle
  have hfst := hout.map Prod.fst
  have hsnd := hout.map Prod.snd
  have hcommands : (c::((b.out n).map Prod.snd ++ a.done)).Nodup :=
    (hsnd.append_right a.done).nodup_iff.mp h.commands
  obtain ⟨hnew, hold⟩ := List.nodup_cons.mp hcommands
  have hacc := (h.accepted_iff c).mp (hsnd.mem_iff.mpr List.mem_cons_self)
  constructor
  · exact h.busy_lt
  · have hmove : (a.free++[i] ++ (b.out n).map Prod.fst).Perm
        (a.free ++ ((i, c)::b.out n).map Prod.fst) := by
      rw [List.append_assoc]
      rfl
    exact (hmove.trans (List.Perm.append_left _ hfst.symm)).trans h.slots
  · have hmove : ((b.out n).map Prod.snd ++ (a.done++[c])).Perm
        (c::((b.out n).map Prod.snd ++ a.done)) := by
      rw [← List.append_assoc]
      exact List.perm_append_singleton _ _
    exact hmove.nodup_iff.mpr hcommands
  · exact h.accepted_nodup
  · intro d
    have hd := h.accepted_iff d
    rw [hsnd.mem_iff, List.map_cons, List.mem_cons] at hd
    change d ∈ (b.out n).map Prod.snd ↔ d ∈ a.accepted ∧ d ∉ a.done++[c]
    rw [List.mem_append, List.mem_singleton, not_or]
    constructor
    · intro hmem
      obtain ⟨hda, hdd⟩ := hd.mp (Or.inr hmem)
      refine ⟨hda, hdd, ?_⟩
      rintro rfl
      exact hnew (List.mem_append_left _ hmem)
    · rintro ⟨hda, hdd, hdc⟩
      exact (hd.mpr ⟨hda, hdd⟩).resolve_left hdc
  · exact h.accepted_lt
  · intro d hd
    rcases List.mem_append.mp hd with hd | hd
    · exact h.done_lt d hd
    · rw [List.mem_singleton.mp hd]
      exact h.accepted_lt c hacc.1
  · apply h.balanced.append
    intro j
    have hc := h.counts j
    have hle := h.count_le j
    rw [hfst.count_eq, List.map_cons, List.count_cons] at hc hle
    simp only [beq_iff_eq] at hc hle
    rw [count_took_put, count_put_put]
    split_ifs at hc hle ⊢ <;> omega
  · intro j
    have hc := h.counts j
    rw [hfst.count_eq, List.map_cons, List.count_cons] at hc
    simp only [beq_iff_eq] at hc
    change (a.log++[put i]).count (took j) = (a.log++[put i]).count (put j)+_
    rw [count_took_put, count_put_put]
    omega

theorem Owned.refuse {n : ℕ} {a : Slots} (h : Owned n a) (completed : Bool) :
    Owned n { a with nextId := a.nextId+1,
                     done := a.done++(if completed then [a.nextId] else []) } := by
  have hmem : ∀ d, d ∈ a.done++(if completed then [a.nextId] else []) →
      d ∈ a.done ∨ d = a.nextId := by
    intro d hd
    cases completed with
    | false => exact Or.inl (by simpa using hd)
    | true => simpa using hd
  constructor
  · exact h.busy_lt
  · exact h.slots
  · cases completed with
    | false =>
        simp only [Bool.false_eq_true, if_false, List.append_nil]
        exact h.commands
    | true =>
        simp only [if_true]
        rw [← List.append_assoc]
        exact (List.perm_append_singleton _ _).nodup_iff.mpr h.commands_cons
  · exact h.accepted_nodup
  · intro c
    change c ∈ (a.out n).map Prod.snd ↔ c ∈ a.accepted ∧ _
    rw [h.accepted_iff]
    constructor
    · rintro ⟨hacc, hdone⟩
      refine ⟨hacc, fun hd => ?_⟩
      rcases hmem c hd with hd | rfl
      · exact hdone hd
      · exact h.nextId_not_accepted hacc
    · rintro ⟨hacc, hdone⟩
      exact ⟨hacc, fun hd => hdone (List.mem_append_left _ hd)⟩
  · intro c hc
    exact Nat.lt_succ_of_lt (h.accepted_lt c hc)
  · intro c hc
    rcases hmem c hc with hc | rfl
    · exact Nat.lt_succ_of_lt (h.done_lt c hc)
    · exact Nat.lt_succ_self _
  · exact h.balanced
  · exact h.counts

theorem Owned.bounce {n i : ℕ} {a : Slots} {rest : List ℕ} (h : Owned n a)
    (hfree : a.free = i::rest) :
    Owned n { a with busy := Function.update a.busy i none, log := a.log++[took i, put i] } := by
  obtain ⟨hi, hnone, hzero⟩ := h.free_head hfree
  have hbusy : Function.update a.busy i none = a.busy := by
    rw [← hnone]
    exact Function.update_eq_self i a.busy
  have hlog : a.log++[took i, put i] = a.log++[took i]++[put i] := by
    rw [List.append_assoc]
    rfl
  rw [hbusy, hlog]
  constructor
  · exact h.busy_lt
  · exact h.slots
  · exact h.commands
  · exact h.accepted_nodup
  · exact h.accepted_iff
  · exact h.accepted_lt
  · exact h.done_lt
  · apply (h.balanced_took hzero).append
    intro j
    have hc := h.counts j
    have hle := h.count_le j
    simp only [count_took_put, count_took_took, count_put_put, count_put_took]
    omega
  · intro j
    have hc := h.counts j
    simp only [count_took_put, count_took_took, count_put_put, count_put_took]
    change _ = _+((a.out n).map Prod.fst).count j
    omega

theorem Owned.move {n : ℕ} {a b : Slots} (h : Owned n a) (hmove : Move a b) : Owned n b := by
  cases hmove with
  | skip => exact h
  | refuse completed => exact h.refuse completed
  | bounce completed hfree => exact (h.bounce hfree).refuse completed
  | take hfree => exact h.take hfree
  | claim hbusy => exact h.claim hbusy
  | release hk => exact h.release hk

end IbSrp.SlotOwnership
