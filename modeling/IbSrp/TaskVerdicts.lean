import IbSrp.TaskManagement

/-!
# Whether task management verdicts match what the target did

All functions of a channel share one completion and one status byte, and nothing
compares the tag of a response with the tag of the request that is waiting. The
answer to a request that timed out therefore ends the wait of the next one. The
two ends also disagree about success: the target reports it without response
data, and the initiator reads a missing response code as status 0xff. A LUN
reset never succeeds, and an abort succeeds whatever the target answered.

The verdicts are right in every run in which no earlier request is unanswered
when a call initialises the completion, aborts that are answered have succeeded,
and LUN resets that are answered have failed.
-/
namespace IbSrp.TaskVerdicts
open LabelledRuns Channel TaskManagement
open ChannelSystem (noData smallTarget willingHca)

/-- The history holds the sending of `req` and, after it, the response with this code. -/
def AnsweredWith (h : List Entry) (req : TskMgmt) (rspCode : BitVec 8) : Prop :=
  Entry.sent req ∈ h ∧ Entry.arrived req rspCode ∈ h.takeWhile (· ≠ Entry.sent req)

/-- What an entry of the history must say about the entries before it. -/
def Right (h : List Entry) : Entry → Prop
  | .returned req true => ∃ rspCode, AnsweredWith h req rspCode
  | .verdict req verdict => verdict = .success ↔ AnsweredWith h req srpTskMgmtSuccess
  | .notSent _ verdict => verdict ≠ .success
  | _ => True

/-- The answers for which the two ends agree. -/
def Agrees (req : TskMgmt) (rspCode : BitVec 8) : Prop :=
  match req.func with
  | .abortTask => rspCode = srpTskMgmtSuccess
  | .lunReset => rspCode ≠ srpTskMgmtSuccess

/-- No response to an earlier request is outstanding when the completion is initialised,
and both ends agree about the responses. -/
def Prompt (s : State) : Event → Prop
  | .check _ => s.usable = true → s.owed = []
  | .respond req rspCode _ _ => Agrees req rspCode
  | _ => True

/-- Nothing has arrived since `req` was sent, and only its response can. -/
structure Unanswered (s : State) (req : TskMgmt) : Prop where
  owed : s.owed.Sublist [req]
  done : s.tskMgmtDone = 0
  log : ∃ h, s.log = .sent req::h

/-- The response to `req` has arrived and nothing more can. -/
structure Answered (s : State) (req : TskMgmt) (later : List Entry) : Prop where
  owed : s.owed = []
  status : s.tskMgmtStatus ≠ 0
  log : ∃ rspCode h, s.log = later++.arrived req rspCode::.sent req::h ∧ Agrees req rspCode

/-- What holds while a function is in progress. -/
def Watched (s : State) : Option Call → Prop
  | none => True
  | some (.check _) => True
  | some (.send _) => s.owed = [] ∧ s.tskMgmtDone = 0
  | some (.wait req) => Unanswered s req ∨ s.tskMgmtDone ≠ 0 ∧ Answered s req []
  | some (.readStatus req) => req.func = .lunReset ∧ Answered s req [.returned req true]

/-- Neither encoding of an outcome leaves a status of zero. -/
theorem tskMgmtStatus_answered (s : State) (req : TskMgmt) (rspCode : BitVec 8)
    (reqLimDelta : BitVec 32) (buf : ℕ → BitVec 8) :
    (s.answered req rspCode reqLimDelta buf).tskMgmtStatus ≠ 0 := by
  unfold State.answered State.processTskMgmtRsp srptBuildTskmgmtRsp
  by_cases hcode : rspCode = srpTskMgmtSuccess
  · simp [hcode]
  · simp only [ne_eq, hcode, not_false_eq_true, if_true]
    exact hcode

theorem onFailure_ne_success (func : TskMgmtFunc) (lost : Bool) (tskMgmtStatus : BitVec 8) :
    func.onFailure lost tskMgmtStatus ≠ .success := by
  cases func with
  | abortTask => cases lost <;> simp [TskMgmtFunc.onFailure, srpAbortVerdict]
  | lunReset => simp [TskMgmtFunc.onFailure, srpResetDeviceVerdict]

theorem srpResetDeviceVerdict_failed {tskMgmtStatus : BitVec 8} (h : tskMgmtStatus ≠ 0) :
    srpResetDeviceVerdict true tskMgmtStatus = .failed := by
  unfold srpResetDeviceVerdict
  rw [if_neg (by decide), if_pos h]

theorem answeredWith_iff {req : TskMgmt} {rspCode rspCode' : BitVec 8} {later h : List Entry}
    (hlater : later = [] ∨ later = [.returned req true]) :
    AnsweredWith (later++.arrived req rspCode::.sent req::h) req rspCode' ↔
      rspCode' = rspCode := by
  unfold AnsweredWith
  cases hlater with
  | inl he => simp [he]
  | inr he => simp [he]

theorem not_answeredWith {req : TskMgmt} {rspCode : BitVec 8} {h : List Entry} :
    ¬AnsweredWith (.returned req false::.sent req::h) req rspCode := by
  simp [AnsweredWith]

section
variable {hca : Hca} {target : SrpTargetPort} {chIdx : ℕ} {s s' : State} {e : Event}

/-- A step that leaves the function and the history alone and adds no response keeps what
is known about them. -/
theorem Watched.shrink {c : Option Call} (h : Watched s c) (howed : s'.owed.Sublist s.owed)
    (hdone : s'.tskMgmtDone = s.tskMgmtDone) (hstatus : s'.tskMgmtStatus = s.tskMgmtStatus)
    (hlog : s'.log = s.log) : Watched s' c := by
  have hanswered : ∀ {req later}, Answered s req later → Answered s' req later := by
    intro req later ha
    constructor
    · exact List.sublist_nil.mp (ha.owed ▸ howed)
    · rw [hstatus]
      exact ha.status
    · rw [hlog]
      exact ha.log
  cases c with
  | none => trivial
  | some c =>
      cases c with
      | check args => trivial
      | send args => exact ⟨List.sublist_nil.mp (h.1 ▸ howed), hdone.trans h.2⟩
      | wait req =>
          cases h with
          | inl hu => exact Or.inl ⟨howed.trans hu.owed, hdone.trans hu.done, hlog ▸ hu.log⟩
          | inr ha => exact Or.inr ⟨hdone ▸ ha.1, hanswered ha.2⟩
      | readStatus req => exact ⟨h.1, hanswered h.2⟩

theorem owedAfter_sublist (e : ChannelSystem.Event) : (s.owedAfter e).Sublist s.owed := by
  unfold State.owedAfter
  split
  · exact List.nil_sublist _
  · exact List.Sublist.refl _

theorem Watched.answered {c : Option Call} (h : Watched s c) {req : TskMgmt} (hmem : req ∈ s.owed)
    {rspCode : BitVec 8} (hagrees : Agrees req rspCode) (reqLimDelta : BitVec 32)
    (buf : ℕ → BitVec 8) : Watched (s.answered req rspCode reqLimDelta buf) c := by
  cases c with
  | none => trivial
  | some c =>
      cases c with
      | check args => trivial
      | send args =>
          rw [h.1] at hmem
          cases hmem
      | wait waiting =>
          cases h with
          | inl hu =>
              have hone : s.owed = [waiting] := by
                cases List.sublist_singleton.mp hu.owed with
                | inl hnil =>
                    rw [hnil] at hmem
                    cases hmem
                | inr hone => exact hone
              rw [hone] at hmem
              cases List.mem_singleton.mp hmem
              obtain ⟨past, hlog⟩ := hu.log
              have howed : s.owed.erase req = [] := by simp [hone]
              refine Or.inr ⟨Nat.succ_ne_zero _, howed, tskMgmtStatus_answered _ _ _ _ _, ?_⟩
              exact ⟨rspCode, past, congrArg _ hlog, hagrees⟩
          | inr ha =>
              rw [ha.2.owed] at hmem
              cases hmem
      | readStatus waiting =>
          rw [h.2.owed] at hmem
          cases hmem

theorem Watched.woken {req : TskMgmt} (h : Watched s (some (.wait req)))
    (hdone : s.tskMgmtDone ≠ 0) (haudited : Audited Right s.log) :
    Watched (s.woken req) (s.woken req).call ∧ Audited Right (s.woken req).log := by
  have ha : Answered s req [] := by
    cases h with
    | inl hu => exact (hdone hu.done).elim
    | inr ha => exact ha.2
  obtain ⟨rspCode, past, hlog, hagrees⟩ := ha.log
  have hreturned : Right s.log (.returned req true) := by
    rw [hlog]
    exact ⟨rspCode, (answeredWith_iff (Or.inl rfl)).mpr rfl⟩
  unfold State.woken
  cases hfunc : req.func with
  | abortTask =>
      have hcode : rspCode = srpTskMgmtSuccess := by simpa [Agrees, hfunc] using hagrees
      have hverdict : Right (.returned req true::s.log) (.verdict req .success) := by
        rw [hlog]
        exact iff_of_true rfl ((answeredWith_iff (Or.inr rfl)).mpr hcode.symm)
      exact ⟨trivial, (haudited.cons hreturned).cons hverdict⟩
  | lunReset =>
      refine ⟨⟨hfunc, ha.owed, ha.status, ?_⟩, haudited.cons hreturned⟩
      exact ⟨rspCode, past, congrArg _ hlog, hagrees⟩

theorem Watched.timedOut {req : TskMgmt} (h : Watched s (some (.wait req)))
    (hdone : s.tskMgmtDone = 0) (haudited : Audited Right s.log) (lost : Bool) :
    Audited Right (s.timedOut req lost).log := by
  have hu : Unanswered s req := by
    cases h with
    | inl hu => exact hu
    | inr ha => exact (ha.1 hdone).elim
  obtain ⟨past, hlog⟩ := hu.log
  have hreturned : Audited Right (.returned req false::s.log) := haudited.cons trivial
  have hverdict : Right (.returned req false::s.log)
      (.verdict req (req.func.onFailure lost s.tskMgmtStatus)) := by
    rw [hlog]
    exact iff_of_false (onFailure_ne_success _ _ _) not_answeredWith
  exact hreturned.cons hverdict

theorem Watched.statusRead {req : TskMgmt} (h : Watched s (some (.readStatus req)))
    (haudited : Audited Right s.log) : Audited Right (s.statusRead req).log := by
  obtain ⟨rspCode, past, hlog, hagrees⟩ := h.2.log
  have hfailed := srpResetDeviceVerdict_failed h.2.status
  have hcode : rspCode ≠ srpTskMgmtSuccess := by simpa [Agrees, h.1] using hagrees
  have hverdict : Right s.log (.verdict req (srpResetDeviceVerdict true s.tskMgmtStatus)) := by
    rw [hlog, hfailed]
    apply iff_of_false
    · exact Verdict.noConfusion
    · rw [answeredWith_iff (Or.inr rfl)]
      exact hcode.symm
  exact haudited.cons hverdict

theorem Watched.stepped (h : Watched s s.call) (haudited : Audited Right s.log)
    (hok : Prompt s e) (hstep : Stepped hca target chIdx s e s') :
    Watched s' s'.call ∧ Audited Right s'.log := by
  cases hstep with
  | channel _ => exact ⟨h.shrink (owedAfter_sublist _) rfl rfl rfl, haudited⟩
  | ignored => exact ⟨h, haudited⟩
  | called _ _ => exact ⟨trivial, haudited⟩
  | checked _ husable => exact ⟨⟨hok husable, rfl⟩, haudited⟩
  | refused => exact ⟨trivial, haudited.cons (onFailure_ne_success _ _ _)⟩
  | sent hcall _ =>
      rw [hcall] at h
      constructor
      · left
        constructor
        · simp [State.sent, h.1]
        · exact h.2
        · exact ⟨_, rfl⟩
      · exact haudited.cons trivial
  | postFailed _ => exact ⟨trivial, haudited.cons (onFailure_ne_success _ _ _)⟩
  | woken hcall hdone =>
      rw [hcall] at h
      exact h.woken hdone haudited
  | timedOut hcall hdone =>
      rw [hcall] at h
      exact ⟨trivial, h.timedOut hdone haudited _⟩
  | statusRead hcall =>
      rw [hcall] at h
      exact ⟨trivial, h.statusRead haudited⟩
  | answered hmem => exact ⟨h.answered hmem hok _ _, haudited.cons trivial⟩
  | dropped => exact ⟨h.shrink List.erase_sublist rfl rfl rfl, haudited⟩

/-- Once a response has been processed the status is not zero again, and `srp_reset_device`
reads it only then. -/
structure Marked (s : State) : Prop where
  done : s.tskMgmtDone ≠ 0 → s.tskMgmtStatus ≠ 0
  reading : ∀ req, s.call = some (.readStatus req) → s.tskMgmtStatus ≠ 0
  log : ∀ req, Entry.verdict req .success ∈ s.log → req.func = .abortTask

theorem Marked.keep (h : Marked s)
    (hdone : s'.tskMgmtDone ≠ 0 → s.tskMgmtDone ≠ 0) (hstatus : s'.tskMgmtStatus = s.tskMgmtStatus)
    (hcall : ∀ req, s'.call = some (.readStatus req) → s.tskMgmtStatus ≠ 0)
    (hlog : ∀ req, Entry.verdict req .success ∈ s'.log →
      Entry.verdict req .success ∈ s.log ∨ req.func = .abortTask) : Marked s' := by
  constructor
  · intro hne
    rw [hstatus]
    exact h.done (hdone hne)
  · intro req hreq
    rw [hstatus]
    exact hcall req hreq
  · intro req hreq
    exact (hlog req hreq).elim (h.log req) id

theorem Marked.notSent (h : Marked s) (func : TskMgmtFunc) (lost : Bool) :
    Marked (s.notSent func lost) := by
  apply h.keep
  · exact id
  · rfl
  · intro req hreq
    cases hreq
  · intro req hreq
    exact Or.inl (by simpa [State.notSent] using hreq)

theorem Marked.woken (h : Marked s) {req : TskMgmt} (hdone : s.tskMgmtDone ≠ 0) :
    Marked (s.woken req) := by
  unfold State.woken
  cases hfunc : req.func with
  | abortTask =>
      apply h.keep
      · exact fun _ => hdone
      · rfl
      · intro req' hreq
        cases hreq
      · intro req' hreq
        cases List.mem_cons.mp hreq with
        | inl he =>
            cases he
            exact Or.inr hfunc
        | inr hlog => exact Or.inl (by simpa using hlog)
  | lunReset =>
      apply h.keep
      · exact fun _ => hdone
      · rfl
      · exact fun _ _ => h.done hdone
      · intro req' hreq
        exact Or.inl (by simpa using hreq)

theorem Marked.stepped (h : Marked s) (hstep : Stepped hca target chIdx s e s') : Marked s' := by
  cases hstep with
  | channel _ => exact h.keep id rfl h.reading fun _ => Or.inl
  | ignored => exact h
  | called _ _ =>
      refine h.keep id rfl ?_ fun _ => Or.inl
      intro req hreq
      cases hreq
  | checked _ _ =>
      refine h.keep ?_ rfl ?_ fun _ => Or.inl
      · intro hne
        exact (hne rfl).elim
      · intro req hreq
        cases hreq
  | refused => exact h.notSent _ _
  | sent _ _ =>
      refine h.keep id rfl ?_ ?_
      · intro req hreq
        cases hreq
      · intro req hreq
        exact Or.inl (by simpa [State.sent] using hreq)
  | @postFailed _ _ sys _ =>
      have hsys : Marked { s with sys := sys } := ⟨h.done, h.reading, h.log⟩
      exact hsys.notSent _ _
  | woken _ hdone => exact h.woken hdone
  | @timedOut req lost _ _ =>
      refine h.keep id rfl ?_ ?_
      · intro req hreq
        cases hreq
      · intro req' hreq
        have hne := onFailure_ne_success req.func lost s.tskMgmtStatus
        exact Or.inl (by simpa [State.timedOut, hne.symm] using hreq)
  | @statusRead req hcall =>
      refine h.keep id rfl ?_ ?_
      · intro req hreq
        cases hreq
      · intro req' hreq
        have hfailed := srpResetDeviceVerdict_failed (h.reading req hcall)
        exact Or.inl (by simpa [State.statusRead, hfailed] using hreq)
  | answered _ =>
      constructor
      · exact fun _ => tskMgmtStatus_answered _ _ _ _ _
      · exact fun _ _ => tskMgmtStatus_answered _ _ _ _ _
      · intro req hreq
        exact h.log req (by simpa [State.answered] using hreq)
  | dropped => exact h.keep id rfl h.reading fun _ => Or.inl

/-- With this target `srp_reset_device` never reports success. -/
theorem reset_never_succeeds {reqLim : BitVec 32}
    (hrun : AnyRun (step hca target chIdx) (State.login target reqLim) s) {req : TskMgmt}
    (hverdict : Entry.verdict req .success ∈ s.log) : req.func = .abortTask := by
  have h : Marked s := by
    apply hrun.invariant (I := Marked)
    · constructor
      · intro hne
        exact (hne rfl).elim
      · intro req hreq
        cases hreq
      · intro req hreq
        cases hreq
    · intro s e s' hs _ hstep
      exact hs.stepped (step_cases hstep)
  exact h.log req hverdict

/-- In every run in which no earlier request is unanswered when a call initialises the
completion, and both ends agree about the responses: `srp_send_tsk_mgmt` returns 0 only if
the response to its own request arrived after it was sent, and a function is reported to have
succeeded if and only if that response says so. -/
theorem verdicts_match {reqLim : BitVec 32}
    (hrun : Run (step hca target chIdx) Prompt (State.login target reqLim) s) :
    (∀ req h, .returned req true::h <:+ s.log → ∃ rspCode, AnsweredWith h req rspCode) ∧
      (∀ req verdict h, .verdict req verdict::h <:+ s.log →
        (verdict = .success ↔ AnsweredWith h req srpTskMgmtSuccess)) ∧
      ∀ func verdict h, .notSent func verdict::h <:+ s.log → verdict ≠ .success := by
  have h : Watched s s.call ∧ Audited Right s.log := by
    apply hrun.invariant (I := fun s => Watched s s.call ∧ Audited Right s.log)
    · exact ⟨trivial, .nil⟩
    · intro s e s' hs hok hstep
      exact hs.1.stepped hs.2 hok (step_cases hstep)
  exact ⟨fun req past hsuffix => h.2.at hsuffix, fun req verdict past hsuffix => h.2.at hsuffix,
    fun func verdict past hsuffix => h.2.at hsuffix⟩

end

instance (req : TskMgmt) (rspCode : BitVec 8) : Decidable (Agrees req rspCode) :=
  match h : req.func with
  | .abortTask => decidable_of_iff (rspCode = srpTskMgmtSuccess) (by simp [Agrees, h])
  | .lunReset => decidable_of_iff (rspCode ≠ srpTskMgmtSuccess) (by simp [Agrees, h])

instance (s : State) (e : Event) : Decidable (Prompt s e) :=
  match e with
  | .check _ => inferInstanceAs (Decidable (s.usable = true → s.owed = []))
  | .respond req rspCode _ _ => inferInstanceAs (Decidable (Agrees req rspCode))
  | .channel _ => isTrue trivial
  | .abort _ => isTrue trivial
  | .resetDevice _ => isTrue trivial
  | .send _ => isTrue trivial
  | .wake => isTrue trivial
  | .timeout _ => isTrue trivial
  | .readStatus => isTrue trivial
  | .drop _ => isTrue trivial

/-- The abort of the command in slot 0, sent as the first request. -/
def firstAbort : TskMgmt := ⟨⟨.abortTask, 0, 0⟩, 0⟩

def reset (seq : ℕ) : TskMgmt := ⟨⟨.lunReset, srpTagNoReq, 0⟩, seq⟩

/-- A command is sent and its abort is waiting. -/
def aborting : List Event :=
  [.channel (.queuecommand .ready (noData 0)), .abort 0, .check false, .send false]

/-- A LUN reset is waiting. -/
def resetting : List Event := [.resetDevice 0, .check false, .send false]

theorem verdicts_match_abort_then_reset : ∃ s,
    Run (step willingHca smallTarget 0) Prompt (State.login smallTarget 4) s ∧
      s.log = [.verdict (reset 1) .failed, .returned (reset 1) false, .sent (reset 1),
        .verdict firstAbort .success, .returned firstAbort true,
        .arrived firstAbort srpTskMgmtSuccess, .sent firstAbort] ∧
      ∃ rspCode, AnsweredWith [.arrived firstAbort srpTskMgmtSuccess, .sent firstAbort] firstAbort
        rspCode := by
  have h : Reaches (guarded (step willingHca smallTarget 0) Prompt)
      (aborting++[.respond firstAbort srpTskMgmtSuccess 0 fun _ => 0, .wake, .channel (.free 0)]++
        resetting++[.timeout false])
      (State.login smallTarget 4)
      (fun s => s.log = [.verdict (reset 1) .failed, .returned (reset 1) false, .sent (reset 1),
        .verdict firstAbort .success, .returned firstAbort true,
        .arrived firstAbort srpTskMgmtSuccess, .sent firstAbort]) = true := by
    decide +kernel
  obtain ⟨s, hrun, hs⟩ := run_of_reaches h
  have hlog := of_decide_eq_true hs
  refine ⟨s, hrun, hlog, (verdicts_match hrun).1 _ _ ?_⟩
  rw [hlog]
  exact ⟨[_, _, _, _], rfl⟩

/-- The answer to an abort that timed out ends the wait of the LUN reset after it; an abort
that the target could not carry out is reported as successful; a LUN reset that was carried
out is reported as failed. -/
theorem verdicts_mismatch :
    (firstAbort.tag ≠ (reset 1).tag ∧
      ∃ s, AnyRun (step willingHca smallTarget 0) (State.login smallTarget 4) s ∧
        s.log = [.returned (reset 1) true, .arrived firstAbort srpTskMgmtSuccess, .sent (reset 1),
          .verdict firstAbort .failed, .returned firstAbort false, .sent firstAbort]) ∧
    (∃ s, AnyRun (step willingHca smallTarget 0) (State.login smallTarget 4) s ∧
      s.log = [.verdict firstAbort .success, .returned firstAbort true,
        .arrived firstAbort srpTskMgmtFailed, .sent firstAbort]) ∧
    ∃ s, AnyRun (step willingHca smallTarget 0) (State.login smallTarget 4) s ∧
      s.log = [.verdict (reset 0) .failed, .returned (reset 0) true,
        .arrived (reset 0) srpTskMgmtSuccess, .sent (reset 0)] := by
  have hlate : Reaches (step willingHca smallTarget 0)
      (aborting++[.timeout false, .channel (.free 0)]++resetting++
        [.respond firstAbort srpTskMgmtSuccess 0 fun _ => 0, .wake])
      (State.login smallTarget 4)
      (fun s => s.log = [.returned (reset 1) true, .arrived firstAbort srpTskMgmtSuccess,
        .sent (reset 1), .verdict firstAbort .failed, .returned firstAbort false,
        .sent firstAbort]) = true := by
    decide +kernel
  have habort : Reaches (step willingHca smallTarget 0)
      (aborting++[.respond firstAbort srpTskMgmtFailed 0 fun _ => 0, .wake])
      (State.login smallTarget 4)
      (fun s => s.log = [.verdict firstAbort .success, .returned firstAbort true,
        .arrived firstAbort srpTskMgmtFailed, .sent firstAbort]) = true := by
    decide +kernel
  have hreset : Reaches (step willingHca smallTarget 0)
      (resetting++[.respond (reset 0) srpTskMgmtSuccess 0 fun _ => 0, .wake, .readStatus])
      (State.login smallTarget 4)
      (fun s => s.log = [.verdict (reset 0) .failed, .returned (reset 0) true,
        .arrived (reset 0) srpTskMgmtSuccess, .sent (reset 0)]) = true := by
    decide +kernel
  obtain ⟨late, hrunLate, hlogLate⟩ := anyRun_of_reaches hlate
  obtain ⟨abort, hrunAbort, hlogAbort⟩ := anyRun_of_reaches habort
  obtain ⟨reset, hrunReset, hlogReset⟩ := anyRun_of_reaches hreset
  exact ⟨⟨by decide, late, hrunLate, of_decide_eq_true hlogLate⟩,
    ⟨abort, hrunAbort, of_decide_eq_true hlogAbort⟩,
    ⟨reset, hrunReset, of_decide_eq_true hlogReset⟩⟩

end IbSrp.TaskVerdicts
