import Mathlib.Data.List.Count
import Mathlib.Data.List.Perm.Basic
import Mathlib.Data.List.Nodup

/-!
# A ledger of objects that are created and destroyed

A program acquires objects from its surroundings and gives them back. The ledger is
the list of these events in order; objects are numbered when they are created, so no
two of them are the same. A ledger is settled with a list of owned objects if every
object that was ever created is either in the list or has been destroyed, and none is
in both or there twice.

Being settled is a statement about the whole past. To know what happened between two
settled ledgers one compares them: an object created in between, or owned before,
that is not owned afterwards has been destroyed exactly once in between.
-/
namespace IbSrp.ObjectLedger

/-- An object of some kind, with its number. -/
structure Obj (κ : Type*) where
  kind : κ
  id : ℕ
deriving DecidableEq, Repr

inductive Event (α : Type*) where
  | create (o : α)
  | destroy (o : α)
deriving DecidableEq, Repr

section Events
variable {α : Type*}

def Event.created : Event α → Option α
  | .create o => some o
  | .destroy _ => none

def Event.destroyed : Event α → Option α
  | .create _ => none
  | .destroy o => some o

def created (es : List (Event α)) : List α := es.filterMap Event.created

def destroyed (es : List (Event α)) : List α := es.filterMap Event.destroyed

@[simp] theorem created_append (es fs : List (Event α)) :
    created (es++fs) = created es++created fs := List.filterMap_append

@[simp] theorem destroyed_append (es fs : List (Event α)) :
    destroyed (es++fs) = destroyed es++destroyed fs := List.filterMap_append

@[simp] theorem created_destroys (os : List α) : created (os.map Event.destroy) = [] := by
  induction os with
  | nil => rfl
  | cons o os ih => exact ih

@[simp] theorem destroyed_destroys (os : List α) : destroyed (os.map Event.destroy) = os := by
  induction os with
  | nil => rfl
  | cons o os ih => exact congrArg (o :: ·) ih

end Events

/-- The events so far and the number of the next object. -/
structure Ledger (κ : Type*) where
  next : ℕ := 0
  events : List (Event (Obj κ)) := []

namespace Ledger
variable {κ : Type*}

def fresh (l : Ledger κ) (k : κ) : Obj κ := ⟨k, l.next⟩

def create (l : Ledger κ) (k : κ) : Ledger κ :=
  { next := l.next+1, events := l.events++[.create (l.fresh k)] }

/-- The objects are destroyed one after the other. -/
def destroy (l : Ledger κ) (os : List (Obj κ)) : Ledger κ :=
  { l with events := l.events++os.map .destroy }

@[simp] theorem destroy_nil (l : Ledger κ) : l.destroy [] = l := by
  simp [destroy]

@[simp] theorem destroy_destroy (l : Ledger κ) (os ps : List (Obj κ)) :
    (l.destroy os).destroy ps = l.destroy (os++ps) := by
  simp [destroy]

/-- The events of `l` are the first of those of `l'`. -/
def Before (l l' : Ledger κ) : Prop := l.events <+: l'.events

theorem Before.refl (l : Ledger κ) : Before l l := List.prefix_refl _

theorem Before.trans {l l' l'' : Ledger κ} (h : Before l l') (h' : Before l' l'') :
    Before l l'' := List.IsPrefix.trans h h'

theorem before_create (l : Ledger κ) (k : κ) : Before l (l.create k) := List.prefix_append _ _

theorem before_destroy (l : Ledger κ) (os : List (Obj κ)) : Before l (l.destroy os) :=
  List.prefix_append _ _

def since (l l' : Ledger κ) : List (Event (Obj κ)) := l'.events.drop l.events.length

theorem Before.events {l l' : Ledger κ} (h : Before l l') : l'.events = l.events++since l l' := by
  cases h with
  | intro es he =>
      unfold since
      rw [← he, List.drop_left]

theorem created_events {l l' : Ledger κ} (h : Before l l') :
    created l'.events = created l.events++created (since l l') := by
  rw [h.events, created_append]

theorem destroyed_events {l l' : Ledger κ} (h : Before l l') :
    destroyed l'.events = destroyed l.events++destroyed (since l l') := by
  rw [h.events, destroyed_append]

end Ledger

/-- Every object that was created is owned or has been destroyed, and only one of these. -/
structure Settled {κ : Type*} (l : Ledger κ) (owned : List (Obj κ)) : Prop where
  perm : (created l.events).Perm (destroyed l.events++owned)
  nodup : (created l.events).Nodup
  lt_next : ∀ o ∈ created l.events, o.id < l.next

namespace Settled
variable {κ : Type*} {l l' : Ledger κ} {owned owned' : List (Obj κ)} {o : Obj κ}

theorem empty : Settled ({} : Ledger κ) [] := ⟨.nil, .nil, by simp [created]⟩

/-- The order in which the owned objects are listed does not matter. -/
theorem reorder (h : Settled l owned) (hperm : owned.Perm owned') : Settled l owned' :=
  { h with perm := h.perm.trans (hperm.append_left _) }

theorem create (h : Settled l owned) (k : κ) : Settled (l.create k) (l.fresh k::owned) := by
  have hcreated : created (l.create k).events = created l.events++[l.fresh k] :=
    created_append _ _
  have hdestroyed : destroyed (l.create k).events = destroyed l.events :=
    (destroyed_append _ _).trans (List.append_nil _)
  have hnew : l.fresh k ∉ created l.events := by
    intro hmem
    exact Nat.lt_irrefl _ (h.lt_next _ hmem)
  constructor
  · rw [hcreated, hdestroyed]
    have hlast : (created l.events++[l.fresh k]).Perm (l.fresh k::created l.events) :=
      List.perm_append_singleton _ _
    have hmiddle : (l.fresh k::(destroyed l.events++owned)).Perm
        (destroyed l.events++l.fresh k::owned) := List.perm_middle.symm
    exact hlast.trans ((h.perm.cons _).trans hmiddle)
  · rw [hcreated]
    exact List.nodup_append_comm.mp (List.nodup_cons.mpr ⟨hnew, h.nodup⟩)
  · intro o ho
    rw [hcreated, List.mem_append] at ho
    cases ho with
    | inl ho => exact Nat.lt_succ_of_lt (h.lt_next o ho)
    | inr ho =>
        rw [List.mem_singleton.mp ho]
        exact Nat.lt_succ_self _

/-- Objects that are owned may be destroyed. -/
theorem destroy {os : List (Obj κ)} (h : Settled l (os++owned)) : Settled (l.destroy os) owned := by
  have hcreated : created (l.destroy os).events = created l.events := by
    simp [Ledger.destroy]
  have hdestroyed : destroyed (l.destroy os).events = destroyed l.events++os := by
    simp [Ledger.destroy]
  constructor
  · rw [hcreated, hdestroyed, List.append_assoc]
    exact h.perm
  · rw [hcreated]
    exact h.nodup
  · rw [hcreated]
    exact h.lt_next

theorem mem_created (h : Settled l owned) (ho : o ∈ owned) : o ∈ created l.events :=
  h.perm.mem_iff.mpr (List.mem_append_right _ ho)

theorem owned_nodup (h : Settled l owned) : owned.Nodup :=
  (List.nodup_append.mp (h.perm.nodup_iff.mp h.nodup)).2.1

theorem not_mem_created_of_since (h' : Settled l' owned') (hbefore : l.Before l')
    (ho : o ∈ created (l.since l')) : o ∉ created l.events := by
  have hnodup := h'.nodup
  rw [Ledger.created_events hbefore] at hnodup
  intro hmem
  exact (List.nodup_append.mp hnodup).2.2 o hmem o ho rfl

section
variable [DecidableEq κ]

theorem count_since (hbefore : l.Before l') (o : Obj κ) :
    (destroyed l'.events).count o = (destroyed l.events).count o+
      (destroyed (l.since l')).count o := by
  rw [Ledger.destroyed_events hbefore, List.count_append]

theorem count_destroyed (h : Settled l owned) (ho : o ∈ created l.events) :
    (destroyed l.events).count o = if o ∈ owned then 0 else 1 := by
  have hall := List.nodup_append.mp (h.perm.nodup_iff.mp h.nodup)
  split_ifs with hmem
  · apply List.count_eq_zero_of_not_mem
    intro hdestroyed
    exact hall.2.2 o hdestroyed o hmem rfl
  · have hor := List.mem_append.mp (h.perm.mem_iff.mp ho)
    exact List.count_eq_one_of_mem hall.1 (hor.resolve_right hmem)

theorem count_destroyed_of_new (h : Settled l owned) (ho : o ∉ created l.events) :
    (destroyed l.events).count o = 0 := by
  apply List.count_eq_zero_of_not_mem
  intro hmem
  exact ho (h.perm.mem_iff.mpr (List.mem_append_left _ hmem))

/-- An object owned afterwards has not been destroyed in between. -/
theorem kept_not_destroyed (h' : Settled l' owned') (hbefore : l.Before l') (ho : o ∈ owned') :
    o ∉ destroyed (l.since l') := by
  have hcount := count_since hbefore o
  rw [h'.count_destroyed (h'.mem_created ho), if_pos ho] at hcount
  intro hmem
  have := List.count_pos_iff.mpr hmem
  omega

section
variable (h : Settled l owned) (h' : Settled l' owned') (hbefore : l.Before l')
include h h' hbefore

/-- An object created in between that is not kept has been destroyed once in between. -/
theorem new_destroyed_once (ho : o ∈ created (l.since l')) (hkept : o ∉ owned') :
    (destroyed (l.since l')).count o = 1 := by
  have hnew := not_mem_created_of_since h' hbefore ho
  have hall : o ∈ created l'.events := by
    rw [Ledger.created_events hbefore]
    exact List.mem_append_right _ ho
  have hcount := count_since hbefore o
  rw [h'.count_destroyed hall, if_neg hkept, h.count_destroyed_of_new hnew] at hcount
  omega

/-- An object owned before and not afterwards has been destroyed once in between. -/
theorem old_destroyed_once (ho : o ∈ owned) (hkept : o ∉ owned') :
    (destroyed (l.since l')).count o = 1 := by
  have hold := h.mem_created ho
  have hall : o ∈ created l'.events := by
    rw [Ledger.created_events hbefore]
    exact List.mem_append_left _ hold
  have hcount := count_since hbefore o
  rw [h'.count_destroyed hall, if_neg hkept, h.count_destroyed hold, if_pos ho] at hcount
  omega

/-- Only objects owned before or created in between have been destroyed in between. -/
theorem destroyed_since (ho : o ∈ destroyed (l.since l')) :
    o ∈ owned ∨ o ∈ created (l.since l') := by
  have hall : o ∈ created l'.events := by
    apply h'.perm.mem_iff.mpr
    rw [Ledger.destroyed_events hbefore]
    exact List.mem_append_left _ (List.mem_append_right _ ho)
  rw [Ledger.created_events hbefore, List.mem_append] at hall
  cases hall with
  | inr hnew => exact .inr hnew
  | inl hold =>
      by_cases hmem : o ∈ owned
      · exact .inl hmem
      · exfalso
        have hone := h.count_destroyed hold
        have hcount := count_since hbefore o
        have hpos := List.count_pos_iff.mpr ho
        have hle := h'.count_destroyed (o := o) (by
          rw [Ledger.created_events hbefore]
          exact List.mem_append_left _ hold)
        rw [if_neg hmem] at hone
        split_ifs at hle <;> omega

theorem kept_since (ho : o ∈ owned') : o ∈ owned ∨ o ∈ created (l.since l') := by
  have hall := h'.mem_created ho
  rw [Ledger.created_events hbefore, List.mem_append] at hall
  cases hall with
  | inr hnew => exact .inr hnew
  | inl hold =>
      left
      by_contra hmem
      have hone := h.count_destroyed hold
      have hcount := count_since hbefore o
      rw [h'.count_destroyed (h'.mem_created ho), if_pos ho] at hcount
      rw [if_neg hmem] at hone
      omega

end

end

end Settled

/-- A program takes the ledger from `l` to `l'` and exchanges the objects `a` for `b`, whatever
else is owned. -/
structure Exchange {κ : Type*} (l : Ledger κ) (a : List (Obj κ)) (l' : Ledger κ)
    (b : List (Obj κ)) : Prop where
  before : l.Before l'
  settled : ∀ rest, Settled l (a++rest) → Settled l' (b++rest)

namespace Exchange
variable {κ : Type*} {l l' l'' : Ledger κ} {a a' b b' c : List (Obj κ)}

theorem refl (l : Ledger κ) (a : List (Obj κ)) : Exchange l a l a :=
  ⟨Ledger.Before.refl l, fun _ h => h⟩

theorem trans (h : Exchange l a l' b) (h' : Exchange l' b l'' c) : Exchange l a l'' c :=
  ⟨h.before.trans h'.before, fun rest hs => h'.settled rest (h.settled rest hs)⟩

theorem reorder (h : Exchange l a l' b) (ha : a.Perm a') (hb : b.Perm b') :
    Exchange l a' l' b' := by
  constructor
  · exact h.before
  · intro rest hs
    have hs' : Settled l (a++rest) := hs.reorder (ha.symm.append_right rest)
    exact (h.settled rest hs').reorder (hb.append_right rest)

theorem frame (h : Exchange l a l' b) (c : List (Obj κ)) : Exchange l (a++c) l' (b++c) := by
  constructor
  · exact h.before
  · intro rest hs
    rw [List.append_assoc] at hs ⊢
    exact h.settled (c++rest) hs

theorem frameLeft (h : Exchange l a l' b) (c : List (Obj κ)) : Exchange l (c++a) l' (c++b) :=
  (h.frame c).reorder List.perm_append_comm List.perm_append_comm

theorem create (l : Ledger κ) (k : κ) : Exchange l [] (l.create k) [l.fresh k] :=
  ⟨l.before_create k, fun _ hs => hs.create k⟩

theorem thenCreate (h : Exchange l a l' b) (k : κ) :
    Exchange l a (l'.create k) (l'.fresh k::b) :=
  h.trans ((create l' k).frame b)

theorem thenAppend (h : Exchange l a l' b) (k : κ) :
    Exchange l a (l'.create k) (b++[l'.fresh k]) :=
  (h.thenCreate k).reorder (.refl _) (List.perm_append_singleton _ _).symm

theorem destroy (l : Ledger κ) (os : List (Obj κ)) : Exchange l os (l.destroy os) [] :=
  ⟨l.before_destroy os, fun _ hs => hs.destroy⟩

/-- Objects that a program has made are not among those owned before. -/
theorem not_mem_of_made {owned : List (Obj κ)} {o : Obj κ} (h : Exchange l [] l' b)
    (hs : Settled l owned) (ho : o ∈ b) : o ∉ owned := by
  intro hmem
  exact (List.nodup_append.mp (h.settled owned hs).owned_nodup).2.2 o ho o hmem rfl

section
variable [DecidableEq κ] {owned : List (Obj κ)} {o : Obj κ}

/-- What is given away is destroyed, and once only. -/
theorem given_destroyed_once {rest : List (Obj κ)} {o : Obj κ} (h : Exchange l a l' b)
    (hs : Settled l (a++rest)) (ho : o ∈ a) (hb : o ∉ b) :
    (destroyed (l.since l')).count o = 1 := by
  have hnodup := List.nodup_append.mp hs.owned_nodup
  apply Settled.old_destroyed_once hs (h.settled rest hs) h.before (List.mem_append_left _ ho)
  intro hkept
  cases List.mem_append.mp hkept with
  | inl hmem => exact hb hmem
  | inr hmem => exact hnodup.2.2 o ho o hmem rfl

/-- A program that leaves nothing has destroyed once all that it has created. -/
theorem all_destroyed_once (h : Exchange l [] l' []) (hs : Settled l owned)
    (ho : o ∈ created (l.since l')) : (destroyed (l.since l')).count o = 1 := by
  have hs' : Settled l' owned := h.settled owned hs
  have hnew := Settled.not_mem_created_of_since hs' h.before ho
  apply Settled.new_destroyed_once hs hs' h.before ho
  intro hmem
  exact hnew (hs.mem_created hmem)

/-- It has destroyed nothing else. -/
theorem only_created_destroyed (h : Exchange l [] l' []) (hs : Settled l owned)
    (ho : o ∈ destroyed (l.since l')) : o ∈ created (l.since l') := by
  have hs' : Settled l' owned := h.settled owned hs
  cases Settled.destroyed_since hs hs' h.before ho with
  | inl hmem => exact absurd ho (hs'.kept_not_destroyed h.before hmem)
  | inr hnew => exact hnew

end

end Exchange

end IbSrp.ObjectLedger
