import Mathlib.Data.List.Perm.Basic
import Mathlib.Algebra.GroupWithZero.Nat

/-!
# Runs of a guarded step function

`step s e` is the state after event `e`, or `none` when the event cannot happen
in state `s`. A run is a finite sequence of events that can all happen. The
predicate `ok` restricts runs: it looks at the state before an event and at the
event itself. With `ok` always true these are all runs.

An invariant is shown once for one step; `Run.invariant` carries it to every
state of every run. That a run leads to some state is shown by a rank. A concrete run is
replayed with `replay`, which computes.

An event often names an element of a list by its number and takes it out;
`perm_eraseIdx` says what is left.

A history is kept newest entry first. It is audited when every entry was right
at the time it was made, which is to say in view of the entries before it.
-/
namespace IbSrp.LabelledRuns

section
variable {σ ε : Type} {step : σ → ε → Option σ} {ok ok' : σ → ε → Prop}

/-- `Run step ok s s'`: some events, each allowed by `ok`, lead from `s` to `s'`. -/
inductive Run (step : σ → ε → Option σ) (ok : σ → ε → Prop) (s : σ) : σ → Prop
  | start : Run step ok s s
  | more {s' s'' : σ} {e : ε} : Run step ok s s' → ok s' e → step s' e = some s'' →
      Run step ok s s''

abbrev AnyRun (step : σ → ε → Option σ) : σ → σ → Prop := Run step fun _ _ => True

theorem Run.invariant {I : σ → Prop} {s s' : σ} (hrun : Run step ok s s') (hstart : I s)
    (hstep : ∀ s e s', I s → ok s e → step s e = some s' → I s') : I s' := by
  induction hrun with
  | start => exact hstart
  | more _ hok he ih => exact hstep _ _ _ ih hok he

theorem Run.mono {s s' : σ} (hrun : Run step ok s s') (h : ∀ s e, ok s e → ok' s e) :
    Run step ok' s s' := by
  induction hrun with
  | start => exact .start
  | more _ hok he ih => exact .more ih (h _ _ hok) he

/-- The state after a list of events, if all of them can happen. -/
def replay (step : σ → ε → Option σ) : List ε → σ → Option σ
  | [], s => some s
  | e::es, s =>
      match step s e with
      | none => none
      | some s' => replay step es s'

theorem Run.append {s s' s'' : σ} (h : Run step ok s s') (h' : Run step ok s' s'') :
    Run step ok s s'' := by
  induction h' with
  | start => exact h
  | more _ hok he ih => exact .more ih hok he

/-- A replay is a run of every step function of which the replayed one is a restriction. -/
theorem run_of_replay {step' : σ → ε → Option σ} {es : List ε}
    (hsub : ∀ s e s', step' s e = some s' → ok s e ∧ step s e = some s') :
    ∀ {s s' : σ}, replay step' es s = some s' → Run step ok s s' := by
  induction es with
  | nil =>
      intro s s' h
      cases h
      exact .start
  | cons e es ih =>
      intro s s' h
      simp only [replay] at h
      cases he : step' s e with
      | none =>
          rw [he] at h
          cases h
      | some s₁ =>
          rw [he] at h
          have hfirst := hsub s e s₁ he
          exact (Run.more .start hfirst.1 hfirst.2).append (ih h)

/-- The events lead to a state with property `P`. -/
def Reaches (step : σ → ε → Option σ) (es : List ε) (s : σ) (P : σ → Bool) : Bool :=
  (replay step es s).any P

theorem anyRun_of_reaches {es : List ε} {s : σ} {P : σ → Bool} (h : Reaches step es s P = true) :
    ∃ s', AnyRun step s s' ∧ P s' = true := by
  cases hr : replay step es s with
  | none => simp [Reaches, hr] at h
  | some s' =>
      have hP : P s' = true := by simpa [Reaches, hr] using h
      exact ⟨s', run_of_replay (fun _ _ _ he => ⟨trivial, he⟩) hr, hP⟩

/-- The step function restricted to the events that `ok` allows. -/
def guarded (step : σ → ε → Option σ) (ok : σ → ε → Prop) [∀ s e, Decidable (ok s e)] (s : σ)
    (e : ε) : Option σ :=
  if ok s e then step s e else none

theorem run_of_reaches [∀ s e, Decidable (ok s e)] {es : List ε} {s : σ} {P : σ → Bool}
    (h : Reaches (guarded step ok) es s P = true) : ∃ s', Run step ok s s' ∧ P s' = true := by
  cases hr : replay (guarded step ok) es s with
  | none => simp [Reaches, hr] at h
  | some s' =>
      have hP : P s' = true := by simpa [Reaches, hr] using h
      refine ⟨s', run_of_replay ?_ hr, hP⟩
      intro s e s' he
      unfold guarded at he
      split_ifs at he with hok
      exact ⟨hok, he⟩

end

section
variable {α : Type} {right : List α → α → Prop}

theorem perm_eraseIdx {l : List α} {k : ℕ} {a : α} (hk : l[k]? = some a) :
    l.Perm (a::l.eraseIdx k) := by
  have hget := List.getElem?_eq_some_iff.mp hk
  have hperm := List.getElem_cons_eraseIdx_perm hget.1
  rw [hget.2] at hperm
  exact hperm.symm

theorem perm_set {l : List α} {k : ℕ} {a : α} (hk : l[k]? = some a) (b : α) :
    (l.set k b).Perm (b::l.eraseIdx k) := by
  have hlt := (List.getElem?_eq_some_iff.mp hk).1
  have hb : (l.set k b)[k]? = some b := by simp [hlt]
  rw [← List.eraseIdx_set_eq]
  exact perm_eraseIdx hb

/-- What replacing one element of a list does to the values that `f` picks from it. -/
theorem count_filterMap_set {β : Type} [BEq β] {f : α → Option β} {l : List α} {k : ℕ} {a : α}
    (hk : l[k]? = some a) (b : α) (v : β) :
    ((l.set k b).filterMap f).count v+(f a).toList.count v =
      (l.filterMap f).count v+(f b).toList.count v := by
  have hcons : ∀ x xs, ((x::xs).filterMap f).count v =
      (f x).toList.count v+(xs.filterMap f).count v := by
    intro x xs
    rw [← List.count_append, List.filterMap_cons]
    cases f x <;> rfl
  rw [((perm_set hk b).filterMap f).count_eq, ((perm_eraseIdx hk).filterMap f).count_eq, hcons,
    hcons]
  omega

theorem sum_map_set {f : α → ℕ} {l : List α} {k : ℕ} {a : α} (hk : l[k]? = some a) (b : α) :
    ((l.set k b).map f).sum+f a = (l.map f).sum+f b := by
  rw [((perm_set hk b).map f).sum_nat, ((perm_eraseIdx hk).map f).sum_nat, List.map_cons,
    List.map_cons, List.sum_cons, List.sum_cons]
  omega

theorem countP_eraseIdx {l : List α} {k : ℕ} {a : α} (hk : l[k]? = some a) (p : α → Bool) :
    l.countP p = (l.eraseIdx k).countP p+(if p a then 1 else 0) := by
  rw [(perm_eraseIdx hk).countP_eq, List.countP_cons]

inductive Audited (right : List α → α → Prop) : List α → Prop
  | nil : Audited right []
  | cons {a : α} {h : List α} : Audited right h → right h a → Audited right (a::h)

theorem Audited.at {l : List α} (hl : Audited right l) {a : α} {h : List α} (hsuffix : a::h <:+ l) :
    right h a := by
  induction hl with
  | nil => cases List.suffix_nil.mp hsuffix
  | cons _ hright ih =>
      cases List.suffix_cons_iff.mp hsuffix with
      | inl heq =>
          cases heq
          exact hright
      | inr hearlier => exact ih hearlier

end

end IbSrp.LabelledRuns
