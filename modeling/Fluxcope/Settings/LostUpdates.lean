import Fluxcope.Settings.FinalizeSpec
/-!
# No update is lost, if no completion comes late

The history records of every draft and every save the revision whose settings the draft
was opened from.  A save then commits on that revision, and a mutation on the revision
it expects, as long as the completions of earlier saves are taken in time.
-/

namespace Fluxcope.Settings

open Fluxcope.Library Fluxcope.Mapping

variable {env : Environment} {globs : Globset}

/-! ## The history -/

/-- The work in the hands of the service. -/
def TransactionPhase.work : TransactionPhase globs → Option SettingsTransactionWork
  | .idle => none
  | .beginning work => some work
  | .admitted work _ => some work
  | .prepared work _ _ => some work
  | .finalizing work _ _ => some work
  | .aborting work _ _ => some work

/-- The system with the base of each draft: the revision whose settings it was opened
from.  A draft that was opened from no settings in force has none. -/
structure Tracked (globs : Globset) where
  system : SettingsSystem globs
  draftBase : Option Nat := none
  saveBases : List (Option Nat) := []
  queueBases : List (Option Nat) := []
  workBase : Option Nat := none

namespace Tracked

/-- The event opens the draft from the settings that the application shows then. -/
def opens (u : Tracked globs) : SettingsEvent → Bool
  | .terminal .openSettings => u.system.runtime.app.popupFocus = none
  | .finalize =>
    match u.system.phase with
    | .finalizing _ _ commit =>
      commit.outcome = .committed && !u.system.runtime.app.settingsPopup.isDirty
    | _ => false
  | _ => false

/-- The history after an event that leads to the system `s`. -/
def observe (u : Tracked globs) (event : SettingsEvent) (s : SettingsSystem globs) : Tracked globs :=
  { system := s
    draftBase :=
      if s.runtime.app.settingsPopup.visible then
        if u.opens event then some s.runtime.app.settingsRevision else u.draftBase
      else none
    saveBases :=
      match event with
      | .terminal _ =>
        if u.system.saves.length < s.saves.length then u.saveBases ++ [u.draftBase]
        else u.saveBases
      | .submitSave index => u.saveBases.eraseIdx index
      | _ => u.saveBases
    queueBases :=
      match event with
      | .submit _ _ => u.queueBases ++ [none]
      | .submitSave index => u.queueBases ++ [u.saveBases[index]?.join]
      | .receive => u.queueBases.tail
      | _ => u.queueBases
    workBase :=
      match event with
      | .receive => u.queueBases.head?.join
      | _ => u.workBase }

def start (env : Environment) (globs : Globset) (context : SettingsUiContext)
    (settings : AppSettings) : Tracked globs :=
  { system := .start env globs context settings }

def step (env : Environment) (u : Tracked globs) (event : SettingsEvent) : Option (Tracked globs) :=
  (u.system.step env event).map (u.observe event)

/-! ## What is promised -/

/-- The answer to a request. -/
def Told (work : SettingsTransactionWork) (reply : TransactionReply) (s t : SettingsSystem globs) :
    Prop :=
  match work.origin with
  | .tui => t.completions = s.completions ++ [reply] ∧ t.replies = s.replies
  | .mcp => t.replies = s.replies ++ [(work, reply)] ∧ t.completions = s.completions

/-- A commit: on the settings that were handed out, which are those of the base of the
draft or of the revision that was expected, and with the next revision. -/
structure Commits (env : Environment) (u : Tracked globs) (work : SettingsTransactionWork)
    (begun : BeginSettingsTransactionReply) (commit : AdmittedSettingsCommit globs)
    (t : SettingsSystem globs) : Prop where
  phase : u.system.phase = .finalizing work begun commit
  base : work.origin = .tui → u.workBase = some u.system.runtime.settingsRevision
  expected : work.origin = .mcp → work.expectedRevision = some u.system.runtime.settingsRevision
  settingsHandedOut : u.system.runtime.settings = begun.settings
  revisionHandedOut : u.system.runtime.settingsRevision = begun.revision
  applied : applyChange env begun.settings work.change =
    .ok (commit.settings, .changed, commit.affected)
  settings : t.runtime.settings = commit.settings
  policy : t.runtime.requestPolicy = (RequestPolicy.compile env globs commit.settings).1
  revision : t.runtime.settingsRevision = u.system.runtime.settingsRevision + 1
  told : Told work (.ok (SettingsSystem.finishResult begun commit .committed)) u.system t

/-- Settings, policy and revision stay as they are. -/
structure Quiet (s t : SettingsSystem globs) : Prop where
  settings : t.runtime.settings = s.runtime.settings
  policy : t.runtime.requestPolicy = s.runtime.requestPolicy
  revision : t.runtime.settingsRevision = s.runtime.settingsRevision

/-- A step changes nothing that is in force, or it is a commit. -/
def StepKept (env : Environment) (u : Tracked globs) (event : SettingsEvent) (v : Tracked globs) :
    Prop :=
  Quiet u.system v.system ∨
    event = .finalize ∧ ∃ work begun commit, Commits env u work begun commit v.system

/-- What a run promises: every step keeps what it must, and equal revisions have equal
settings. -/
def NoUpdateLost (env : Environment) (globs : Globset) (context : SettingsUiContext)
    (settings : AppSettings) (events : List SettingsEvent) : Prop :=
  (∀ pre event post u v, events = pre ++ event :: post →
    run (step env) (start env globs context settings) pre = some u → u.step env event = some v →
      StepKept env u event v) ∧
  ∀ pre mid post u v, events = pre ++ mid ++ post →
    run (step env) (start env globs context settings) pre = some u →
      run (step env) u mid = some v →
        v.system.runtime.settingsRevision = u.system.runtime.settingsRevision →
          v.system.runtime.settings = u.system.runtime.settings

/-- No completion is out of date, opens a closed popup, or comes during a transaction; no
save is asked for before the completion of the one before; there is a next revision. -/
def Prompt (u : Tracked globs) : SettingsEvent → Prop
  | .terminal (.popup .save) =>
    u.system.runtime.app.settingsTransactionPending = false → u.system.completions = []
  | .complete index =>
    u.system.runtime.pendingSettingsTransaction = none ∧
      match u.system.completions[index]? with
      | some (.ok result) =>
        result.settings = u.system.runtime.settings ∧
          result.revision = u.system.runtime.settingsRevision
      | some (.error _) => u.system.runtime.app.settingsPopup.visible = true
      | none => True
  | .finalize =>
    ∀ work begun commit, u.system.phase = .finalizing work begun commit →
      commit.outcome = .committed → u.system.runtime.settingsRevision < wordMax
  | _ => True

end Tracked

/-! ## The invariant -/

def SettingsTransactionWork.isSave (work : SettingsTransactionWork) : Bool := work.origin = .tui

namespace TransactionPhase

def begun : TransactionPhase globs → Option BeginSettingsTransactionReply
  | .idle => none
  | .beginning _ => none
  | .admitted _ begun => some begun
  | .prepared _ begun _ => some begun
  | .finalizing _ begun _ => some begun
  | .aborting _ begun _ => some begun

/-- A save that the service has in hand, before its `Begin`. -/
def beginningSaves : TransactionPhase globs → Nat
  | .beginning work => if work.isSave then 1 else 0
  | _ => 0

/-- A save that the service has in hand, after its `Begin`. -/
def openSaves (phase : TransactionPhase globs) : Nat :=
  if phase.isOpen && phase.work.any SettingsTransactionWork.isSave then 1 else 0

end TransactionPhase

/-- The saves on their way to their `Begin`. -/
def SettingsSystem.waitingSaves (s : SettingsSystem globs) : Nat :=
  s.saves.length + s.queue.countP SettingsTransactionWork.isSave + s.phase.beginningSaves

namespace Tracked

variable {u : Tracked globs}

/-- The popup and the token. -/
structure Guarded (s : SettingsSystem globs) : Prop where
  active : s.runtime.app.popupFocus = some .settings → s.runtime.app.settingsPopup.visible = true
  waits : s.runtime.pendingSettingsTransaction.isSome = true →
    s.runtime.app.settingsTransactionPending = true
  clean : ∀ token, s.runtime.pendingSettingsTransaction = some (token, .mcp) →
    s.runtime.app.settingsPopup.isDirty = false

/-- There is one save at most, and until its `Begin` nothing else can begin. -/
structure Single (s : SettingsSystem globs) : Prop where
  single : s.waitingSaves + s.phase.openSaves + s.completions.length ≤ 1
  waits : 0 < s.waitingSaves → s.runtime.app.settingsTransactionPending = true ∧
    s.runtime.pendingSettingsTransaction = none

/-- A mutation has its expected revision, which its `Begin` has checked. -/
structure Expects (s : SettingsSystem globs) : Prop where
  queue : ∀ work ∈ s.queue, work.origin = .mcp → work.expectedRevision.isSome = true
  inHand : ∀ work, s.phase.work = some work → work.origin = .mcp →
    work.expectedRevision.isSome = true
  begun : ∀ work begun revision, s.phase.work = some work → s.phase.begun = some begun →
    work.expectedRevision = some revision → revision = begun.revision

/-- The bases are those of the settings in force. -/
structure Based (u : Tracked globs) : Prop where
  saveLength : u.saveBases.length = u.system.saves.length
  queueLength : u.queueBases.length = u.system.queue.length
  draft : u.system.runtime.app.settingsPopup.visible = true →
    u.draftBase = some u.system.runtime.settingsRevision ∨
      ∃ result, (Except.ok result : TransactionReply) ∈ u.system.completions
  saves : ∀ base ∈ u.saveBases, base = some u.system.runtime.settingsRevision
  queue : ∀ entry ∈ u.system.queue.zip u.queueBases, entry.1.origin = .tui →
    entry.2 = some u.system.runtime.settingsRevision
  inHand : ∀ work, u.system.phase.work = some work → work.origin = .tui →
    u.workBase = some u.system.runtime.settingsRevision

structure Inv (env : Environment) (u : Tracked globs) : Prop where
  settled : u.system.Settled env
  guarded : Guarded u.system
  single : Single u.system
  expects : Expects u.system
  based : Based u

variable {s t : SettingsSystem globs}

/-! ### The popup and the token -/

theorem guarded_handled {app : App} {event : TerminalEvent}
    (hhandled : s.runtime.app.Handled env event app) (hs : Guarded s) :
    Guarded (s.modifyApp fun _ => app) := by
  have hwaits : ∀ {app : App}, s.runtime.app.SameView app →
      s.runtime.pendingSettingsTransaction.isSome = true → app.settingsTransactionPending = true :=
    fun hview h => hview.pending.trans (hs.waits h)
  have hbusy : ∀ {token : Nat}, s.runtime.pendingSettingsTransaction = some (token, .mcp) →
      ¬ s.runtime.app.settingsTransactionPending = false := by
    intro token h hfree
    rw [hs.waits (by rw [h]; rfl)] at hfree
    cases hfree
  refine ⟨?_, hwaits hhandled.sameView, ?_⟩
  · cases hhandled with
    | ignored => exact hs.active
    | focused focus hfocus hother => exact fun h => absurd h hfocus
    | opened hevent hfocus => exact fun _ => rfl
    | noted error hactive => exact hs.active
    | edited current error hactive hpending => exact hs.active
    | closed hactive hpending => exact fun h => by cases h
    | saved hevent hactive hpending => exact hs.active
  · intro token h
    cases hhandled with
    | ignored => exact hs.clean token h
    | focused focus hfocus hother => exact hs.clean token h
    | opened hevent hfocus => exact SettingsDraft.isDirty_new _
    | noted error hactive => exact hs.clean token h
    | edited current error hactive hpending => exact absurd hpending (hbusy h)
    | closed hactive hpending => exact absurd hpending (hbusy h)
    | saved hevent hactive hpending => exact absurd hpending (hbusy h)

/-- Nothing is pending after the end of a transaction. -/
theorem guarded_ended {runtime : AppRuntime globs} {work : SettingsTransactionWork}
    {reply : TransactionReply} (htoken : runtime.pendingSettingsTransaction = none)
    (hactive : runtime.app.popupFocus = some .settings →
      runtime.app.settingsPopup.visible = true) :
    Guarded ({ s with runtime }.answer work reply) := by
  constructor
  · rw [SettingsSystem.answer_runtime]
    exact hactive
  · rw [SettingsSystem.answer_runtime, htoken]
    exact fun h => by cases h
  · rw [SettingsSystem.answer_runtime, htoken]
    exact fun token h => by cases h

theorem applyCommit_popup {app app' : App} {settings : AppSettings} {revision : Nat}
    {origin : SettingsTransactionOrigin}
    (h : app.applySettingsTransactionCommitFromOrigin settings revision origin = .ok app') :
    app'.popupFocus = app.popupFocus ∧
      app'.settingsPopup =
        if app.settingsPopup.visible && !app.settingsPopup.isDirty then
          app.settingsPopup.openWith settings
        else app.settingsPopup := by
  unfold App.applySettingsTransactionCommitFromOrigin at h
  split at h
  · cases h
  · obtain rfl := Except.ok.inj h
    exact ⟨rfl, rfl⟩

theorem guarded_answer {work : SettingsTransactionWork} {reply : TransactionReply}
    (hs : Guarded s) : Guarded (s.answer work reply) := by
  constructor
  · rw [SettingsSystem.answer_runtime]
    exact hs.active
  · rw [SettingsSystem.answer_runtime]
    exact hs.waits
  · rw [SettingsSystem.answer_runtime]
    exact hs.clean

theorem guarded_of_stepped {event : SettingsEvent} (h : SettingsSystem.Stepped env s event t)
    (hs : Guarded s) (hsettled : s.Settled env)
    (hfree : ∀ index, event = .complete index → s.runtime.pendingSettingsTransaction = none) :
    Guarded t := by
  cases h with
  | terminal event =>
    have heffect := (@SettingsSystem.terminalEffect env) hsettled.save event
    generalize (s.modifyApp fun app => app.handleTerminalEvent env event
      ).handleSettingsSaveRequest = t at heffect
    cases heffect with
    | shown app hhandled hsave => exact guarded_handled hhandled hs
    | requested hevent hactive hpending => exact ⟨hs.active, fun _ => rfl, hs.clean⟩
  | submitted mutation expectedRevision => exact ⟨hs.active, hs.waits, hs.clean⟩
  | saveSubmitted index draft hsave => exact ⟨hs.active, hs.waits, hs.clean⟩
  | received work queue hphase hqueue => exact ⟨hs.active, hs.waits, hs.clean⟩
  | withdrawn message work hphase => exact guarded_answer hs
  | refused work error hphase hcheck => exact guarded_answer hs
  | begun work hphase hcheck =>
    refine ⟨hs.active, fun _ => rfl, fun token h => ?_⟩
    obtain ⟨-, hclean, -, -⟩ := AppRuntime.admission_free hcheck
    exact hclean (Prod.mk.inj (Option.some.inj h)).2
  | rejected work begun error hphase hprepare => exact ⟨hs.active, hs.waits, hs.clean⟩
  | unchanged work begun candidate hphase hprepare heffect => exact ⟨hs.active, hs.waits, hs.clean⟩
  | prepared work begun candidate hphase hprepare heffect => exact ⟨hs.active, hs.waits, hs.clean⟩
  | failed failure work begun hphase => exact ⟨hs.active, hs.waits, hs.clean⟩
  | persisted work begun candidate hphase => exact ⟨hs.active, hs.waits, hs.clean⟩
  | finalized work begun commit hphase =>
    have hcommit := hsettled.sound.phase
    rw [hphase] at hcommit
    have hended := SettingsSystem.finalizeTransaction_ended hcommit.1 hcommit.2
    generalize s.finalizeTransaction work begun commit = t at hended
    cases hended with
    | unchanged outcome => exact guarded_ended rfl hs.active
    | committed outcome app happ =>
      obtain ⟨hfocus, hpopup⟩ := applyCommit_popup happ
      refine guarded_ended rfl fun h => ?_
      have hvisible := hs.active (hfocus.symm.trans h)
      dsimp only
      rw [hpopup]
      split
      · rfl
      · exact hvisible
    | torn outcome error happ =>
      exact guarded_answer (s := { s with runtime := s.installed env commit })
        ⟨hs.active, hs.waits, hs.clean⟩
  | aborted work begun error hphase =>
    have held := hsettled.sound.phase
    rw [hphase] at held
    rw [SettingsSystem.abortTransaction_eq held]
    exact guarded_ended rfl hs.active
  | completed index reply hreply =>
    have hnone := hfree index rfl
    refine ⟨?_, fun h => ?_, fun token h => ?_⟩
    · cases reply with
      | ok result => exact fun h => by cases h
      | error error => exact fun _ => rfl
    · have h : s.runtime.pendingSettingsTransaction.isSome = true := h
      rw [hnone] at h
      cases h
    · have h : s.runtime.pendingSettingsTransaction = some (token, .mcp) := h
      rw [hnone] at h
      cases h
  | readSettings => exact hs
  | readPreview expectedRevision => exact hs

/-- A prompt step is timely: the draft of a pending mutation is clean. -/
theorem timely_of_prompt {event : SettingsEvent} (hprompt : u.Prompt event)
    (hsound : u.system.Sound env) (hs : Guarded u.system) : u.system.Timely event := by
  cases event with
  | complete index =>
    intro result hresult
    have hcurrent := hprompt.2
    rw [hresult] at hcurrent
    exact hcurrent
  | finalize =>
    intro work begun commit hphase horigin _
    have hcommit := hsound.phase
    rw [hphase] at hcommit
    have hpending := hcommit.1.pending
    rw [horigin] at hpending
    exact hs.clean _ hpending
  | _ => trivial

/-! ### Expected revisions -/

theorem expects_answer {runtime : AppRuntime globs} {work : SettingsTransactionWork}
    {reply : TransactionReply} (hs : Expects s) : Expects ({ s with runtime }.answer work reply) := by
  refine ⟨?_, ?_, ?_⟩
  · rw [SettingsSystem.answer_queue]
    exact hs.queue
  · rw [SettingsSystem.answer_phase]
    exact fun work h => by cases h
  · rw [SettingsSystem.answer_phase]
    exact fun work begun revision h => by cases h

/-- The work and the reply to its `Begin` stay the same during a transaction. -/
theorem Expects.advance (hs : Expects s) (hqueue : t.queue = s.queue)
    (hwork : t.phase.work = s.phase.work) (hbegun : t.phase.begun = s.phase.begun) : Expects t := by
  refine ⟨?_, ?_, ?_⟩
  · rw [hqueue]
    exact hs.queue
  · rw [hwork]
    exact hs.inHand
  · rw [hwork, hbegun]
    exact hs.begun

theorem handleSettingsSaveRequest_queue (s : SettingsSystem globs) (f : App → App) :
    (s.modifyApp f).handleSettingsSaveRequest.queue = s.queue := by
  unfold SettingsSystem.handleSettingsSaveRequest
  split
  · rfl
  · split <;> rfl

theorem expects_of_stepped {event : SettingsEvent} (h : SettingsSystem.Stepped env s event t)
    (hs : Expects s) : Expects t := by
  cases h with
  | terminal event =>
    have hphase := (SettingsSystem.sameService_terminal s
      fun app => app.handleTerminalEvent env event).phase
    exact hs.advance (handleSettingsSaveRequest_queue s _) (by rw [hphase]) (by rw [hphase])
  | submitted mutation expectedRevision =>
    refine ⟨fun work hwork horigin => ?_, hs.inHand, hs.begun⟩
    rcases List.mem_append.1 hwork with hwork | hwork
    · exact hs.queue work hwork horigin
    · rw [List.mem_singleton.1 hwork]
      rfl
  | saveSubmitted index draft hsave =>
    refine ⟨fun work hwork horigin => ?_, hs.inHand, hs.begun⟩
    rcases List.mem_append.1 hwork with hwork | hwork
    · exact hs.queue work hwork horigin
    · rw [List.mem_singleton.1 hwork] at horigin
      cases horigin
  | received work queue hphase hqueue =>
    refine ⟨fun other hother => hs.queue other ?_, fun other hother => ?_, fun _ _ _ _ h => by cases h⟩
    · rw [hqueue]
      exact List.mem_cons_of_mem work hother
    · obtain rfl := Option.some.inj hother
      exact hs.queue work (by rw [hqueue]; exact List.mem_cons_self)
  | withdrawn message work hphase => exact (@expects_answer _ _ s.runtime) hs
  | refused work error hphase hcheck => exact (@expects_answer _ _ s.runtime) hs
  | begun work hphase hcheck =>
    refine ⟨hs.queue, fun other hother => ?_, fun other begun revision hother hbegun hexpected => ?_⟩
    · obtain rfl := Option.some.inj hother
      exact hs.inHand work (by rw [hphase]; rfl)
    · obtain rfl := Option.some.inj hother
      obtain rfl := Option.some.inj hbegun
      exact (AppRuntime.admission_free hcheck).1 revision hexpected
  | rejected work begun error hphase hprepare =>
    exact hs.advance rfl (by rw [hphase]; rfl) (by rw [hphase]; rfl)
  | unchanged work begun candidate hphase hprepare heffect =>
    exact hs.advance rfl (by rw [hphase]; rfl) (by rw [hphase]; rfl)
  | prepared work begun candidate hphase hprepare heffect =>
    exact hs.advance rfl (by rw [hphase]; rfl) (by rw [hphase]; rfl)
  | failed failure work begun hphase =>
    rcases hphase with hphase | ⟨candidate, hphase⟩
    · exact hs.advance rfl (by rw [hphase]; rfl) (by rw [hphase]; rfl)
    · exact hs.advance rfl (by rw [hphase]; rfl) (by rw [hphase]; rfl)
  | persisted work begun candidate hphase =>
    exact hs.advance rfl (by rw [hphase]; rfl) (by rw [hphase]; rfl)
  | finalized work begun commit hphase => exact expects_answer hs
  | aborted work begun error hphase =>
    unfold SettingsSystem.abortTransaction
    split <;> exact expects_answer hs
  | completed index reply hreply => exact hs.advance rfl rfl rfl
  | readSettings => exact hs
  | readPreview expectedRevision => exact hs

/-! ### One save at most -/

/-- What counts for the saves is the same. -/
theorem Single.congr (hs : Single s) (hwaiting : t.waitingSaves = s.waitingSaves)
    (hopen : t.phase.openSaves = s.phase.openSaves) (hcompletions : t.completions = s.completions)
    (hpending : t.runtime.app.settingsTransactionPending = s.runtime.app.settingsTransactionPending)
    (htoken : t.runtime.pendingSettingsTransaction = s.runtime.pendingSettingsTransaction) :
    Single t := by
  constructor
  · rw [hwaiting, hopen, hcompletions]
    exact hs.single
  · rw [hwaiting, hpending, htoken]
    exact hs.waits

/-- The answer to a save is one more completion. -/
theorem single_answer {runtime : AppRuntime globs} {work : SettingsTransactionWork}
    {reply : TransactionReply}
    (hone : s.saves.length + s.queue.countP SettingsTransactionWork.isSave + s.completions.length +
      (if work.isSave then 1 else 0) ≤ 1)
    (hnone : 0 < s.saves.length + s.queue.countP SettingsTransactionWork.isSave →
      runtime.app.settingsTransactionPending = true ∧ runtime.pendingSettingsTransaction = none) :
    Single ({ s with runtime }.answer work reply) := by
  unfold SettingsSystem.answer
  cases horigin : work.origin with
  | tui =>
    have hsave : work.isSave = true := by rw [SettingsTransactionWork.isSave, horigin]; rfl
    rw [if_pos hsave] at hone
    refine ⟨?_, hnone⟩
    simp only [SettingsSystem.waitingSaves, TransactionPhase.beginningSaves,
      TransactionPhase.openSaves, TransactionPhase.isOpen, List.length_append,
      List.length_singleton, Bool.false_and, Bool.false_eq_true, if_false]
    omega
  | mcp =>
    have hsave : ¬ work.isSave = true := by rw [SettingsTransactionWork.isSave, horigin]; decide
    rw [if_neg hsave] at hone
    refine ⟨?_, hnone⟩
    simp only [SettingsSystem.waitingSaves, TransactionPhase.beginningSaves,
      TransactionPhase.openSaves, TransactionPhase.isOpen, Bool.false_and, Bool.false_eq_true,
      if_false]
    omega

/-- A request goes back before its `Begin`. -/
theorem single_returned {work : SettingsTransactionWork} {reply : TransactionReply}
    (hphase : s.phase = .beginning work) (hs : Single s) : Single (s.answer work reply) := by
  have hone := hs.single
  have hwaits := hs.waits
  unfold SettingsSystem.waitingSaves at hone hwaits
  rw [hphase] at hone hwaits
  dsimp only [TransactionPhase.beginningSaves] at hone hwaits
  refine (@single_answer _ _ s.runtime) ?_ fun h => hwaits ?_
  · omega
  · omega

/-- A transaction ends. -/
theorem single_ended {runtime : AppRuntime globs} {work : SettingsTransactionWork}
    {reply : TransactionReply} (hwork : s.phase.work = some work) (hopen : s.phase.isOpen = true)
    (hpending : s.runtime.pendingSettingsTransaction.isSome = true) (hs : Single s) :
    Single ({ s with runtime }.answer work reply) := by
  have hnone : s.waitingSaves = 0 := by
    by_contra hne
    have hfree := (hs.waits (Nat.pos_of_ne_zero hne)).2
    rw [hfree] at hpending
    cases hpending
  have hone := hs.single
  unfold TransactionPhase.openSaves at hone
  rw [hopen, hwork, Option.any_some, Bool.true_and] at hone
  unfold SettingsSystem.waitingSaves at hnone hone
  refine single_answer ?_ fun h => ?_
  · omega
  · omega

/-- A transaction goes on. -/
theorem Single.advance (hs : Single s) (hwaiting : t.waitingSaves = s.waitingSaves)
    (hopen : t.phase.isOpen = s.phase.isOpen) (hwork : t.phase.work = s.phase.work)
    (hcompletions : t.completions = s.completions) (hruntime : t.runtime = s.runtime) :
    Single t := by
  refine hs.congr hwaiting ?_ hcompletions (by rw [hruntime]) (by rw [hruntime])
  unfold TransactionPhase.openSaves
  rw [hopen, hwork]

/-- A save is asked for: there was none before. -/
theorem single_requested {draft : AppSettings} (hs : Single s) (hsettled : s.Settled env)
    (hguarded : Guarded s) (hpending : s.runtime.app.settingsTransactionPending = false)
    (hcompletions : s.completions = []) :
    Single { s.modifyApp fun app => app.setSettingsTransactionPending true with
      saves := s.saves ++ [draft] } := by
  have hwaiting : s.waitingSaves = 0 := by
    by_contra hne
    have hbusy := (hs.waits (Nat.pos_of_ne_zero hne)).1
    rw [hpending] at hbusy
    cases hbusy
  have htoken : s.runtime.pendingSettingsTransaction = none := by
    cases htoken : s.runtime.pendingSettingsTransaction with
    | none => rfl
    | some token =>
      have hbusy := hguarded.waits (by rw [htoken]; rfl)
      rw [hpending] at hbusy
      cases hbusy
  have hopen : s.phase.openSaves = 0 := by
    unfold TransactionPhase.openSaves
    cases hopen : s.phase.isOpen with
    | false => rfl
    | true =>
      have hsome := hsettled.sound.pending_of_isOpen hopen
      rw [htoken] at hsome
      cases hsome
  unfold SettingsSystem.waitingSaves at hwaiting
  constructor
  · simp only [SettingsSystem.waitingSaves, SettingsSystem.modifyApp, hopen, hcompletions,
      List.length_append, List.length_singleton, List.length_nil]
    omega
  · exact fun _ => ⟨rfl, htoken⟩

/-- A transaction begins. -/
theorem single_begun {runtime : AppRuntime globs} {work : SettingsTransactionWork}
    {begun : BeginSettingsTransactionReply} (hs : Single s) (hphase : s.phase = .beginning work)
    (hother : work.origin = .mcp → s.runtime.app.settingsTransactionPending = false) :
    Single { s with runtime, phase := .admitted work begun } := by
  have hone := hs.single
  have hwaits := hs.waits
  unfold SettingsSystem.waitingSaves at hone hwaits
  rw [hphase] at hone hwaits
  unfold TransactionPhase.openSaves at hone
  dsimp only [TransactionPhase.beginningSaves, TransactionPhase.isOpen] at hone hwaits
  have hnone : s.saves.length + s.queue.countP SettingsTransactionWork.isSave = 0 := by
    cases horigin : work.origin with
    | tui =>
      have hsave : work.isSave = true := by rw [SettingsTransactionWork.isSave, horigin]; rfl
      rw [if_pos hsave] at hone
      omega
    | mcp =>
      by_contra hne
      have hbusy := (hwaits (by omega)).1
      rw [hother horigin] at hbusy
      cases hbusy
  constructor
  · simp only [SettingsSystem.waitingSaves, TransactionPhase.beginningSaves,
      TransactionPhase.openSaves, TransactionPhase.isOpen, TransactionPhase.work, Option.any_some,
      Bool.true_and]
    simp only [Bool.false_and, Bool.false_eq_true, if_false] at hone
    omega
  · intro h
    simp only [SettingsSystem.waitingSaves, TransactionPhase.beginningSaves] at h
    omega

theorem single_of_stepped {event : SettingsEvent} (h : SettingsSystem.Stepped env s event t)
    (hs : Single s) (hsettled : s.Settled env) (hguarded : Guarded s)
    (hprompt : event = .terminal (.popup .save) →
      s.runtime.app.settingsTransactionPending = false → s.completions = [])
    (hfree : ∀ index, event = .complete index → s.runtime.pendingSettingsTransaction = none) :
    Single t := by
  have hopen := fun hopen => hsettled.sound.pending_of_isOpen hopen
  cases h with
  | terminal event =>
    have heffect := (@SettingsSystem.terminalEffect env) hsettled.save event
    generalize (s.modifyApp fun app => app.handleTerminalEvent env event
      ).handleSettingsSaveRequest = t at heffect
    cases heffect with
    | shown app hhandled hsave =>
      exact hs.congr rfl rfl rfl hhandled.sameView.pending rfl
    | requested hevent hactive hpending =>
      exact single_requested hs hsettled hguarded hpending
        (hprompt (congrArg SettingsEvent.terminal hevent) hpending)
  | submitted mutation expectedRevision =>
    refine hs.congr ?_ rfl rfl rfl rfl
    simp [SettingsSystem.waitingSaves, SettingsTransactionWork.isSave,
      SettingsTransactionWork.mutateMapping]
  | saveSubmitted index draft hsave =>
    refine hs.congr ?_ rfl rfl rfl rfl
    have hlength := List.length_eraseIdx_add_one (List.getElem?_eq_some_iff.1 hsave).1
    simp [SettingsSystem.waitingSaves, SettingsTransactionWork.isSave,
      SettingsTransactionWork.replaceFromTui]
    omega
  | received work queue hphase hqueue =>
    refine hs.congr ?_ ?_ rfl rfl rfl
    · simp only [SettingsSystem.waitingSaves, TransactionPhase.beginningSaves, hqueue, hphase,
        List.countP_cons]
      omega
    · rw [hphase]
      rfl
  | withdrawn message work hphase => exact single_returned hphase hs
  | refused work error hphase hcheck => exact single_returned hphase hs
  | begun work hphase hcheck =>
    exact single_begun hs hphase (AppRuntime.admission_free hcheck).2.2.1
  | rejected work begun error hphase hprepare =>
    exact hs.advance (by unfold SettingsSystem.waitingSaves; rw [hphase]; rfl)
      (by rw [hphase]; rfl) (by rw [hphase]; rfl) rfl rfl
  | unchanged work begun candidate hphase hprepare heffect =>
    exact hs.advance (by unfold SettingsSystem.waitingSaves; rw [hphase]; rfl)
      (by rw [hphase]; rfl) (by rw [hphase]; rfl) rfl rfl
  | prepared work begun candidate hphase hprepare heffect =>
    exact hs.advance (by unfold SettingsSystem.waitingSaves; rw [hphase]; rfl)
      (by rw [hphase]; rfl) (by rw [hphase]; rfl) rfl rfl
  | failed failure work begun hphase =>
    rcases hphase with hphase | ⟨candidate, hphase⟩
    · exact hs.advance (by unfold SettingsSystem.waitingSaves; rw [hphase]; rfl)
        (by rw [hphase]; rfl) (by rw [hphase]; rfl) rfl rfl
    · exact hs.advance (by unfold SettingsSystem.waitingSaves; rw [hphase]; rfl)
        (by rw [hphase]; rfl) (by rw [hphase]; rfl) rfl rfl
  | persisted work begun candidate hphase =>
    exact hs.advance (by unfold SettingsSystem.waitingSaves; rw [hphase]; rfl)
      (by rw [hphase]; rfl) (by rw [hphase]; rfl) rfl rfl
  | finalized work begun commit hphase =>
    exact single_ended (by rw [hphase]; rfl) (by rw [hphase]; rfl)
      (hopen (by rw [hphase]; rfl)) hs
  | aborted work begun error hphase =>
    have held := hsettled.sound.phase
    rw [hphase] at held
    rw [SettingsSystem.abortTransaction_eq held]
    exact single_ended (by rw [hphase]; rfl) (by rw [hphase]; rfl)
      (hopen (by rw [hphase]; rfl)) hs
  | completed index reply hreply =>
    have hone := hs.single
    have hlength := List.length_eraseIdx_add_one (List.getElem?_eq_some_iff.1 hreply).1
    constructor
    · simp only [SettingsSystem.waitingSaves, SettingsSystem.modifyApp] at hone ⊢
      omega
    · intro h
      simp only [SettingsSystem.waitingSaves, SettingsSystem.modifyApp] at h hone
      omega
  | readSettings => exact hs
  | readPreview expectedRevision => exact hs

/-! ### The bases -/

/-- The draft was opened from the settings in force, or a save of it has committed. -/
def DraftBased (base : Option Nat) (s : SettingsSystem globs) : Prop :=
  s.runtime.app.settingsPopup.visible = true →
    base = some s.runtime.settingsRevision ∨
      ∃ result, (Except.ok result : TransactionReply) ∈ s.completions

/-- An event that leaves the saves and the revision alone. -/
theorem Based.keep {event : SettingsEvent} (hs : Based u)
    (hsaveBases : (u.observe event t).saveBases = u.saveBases)
    (hqueueBases : (u.observe event t).queueBases = u.queueBases)
    (hworkBase : (u.observe event t).workBase = u.workBase)
    (hsaves : t.saves = u.system.saves) (hqueue : t.queue = u.system.queue)
    (hrevision : t.runtime.settingsRevision = u.system.runtime.settingsRevision)
    (hwork : ∀ work, t.phase.work = some work → u.system.phase.work = some work)
    (hdraft : DraftBased (u.observe event t).draftBase t) : Based (u.observe event t) where
  saveLength := by
    rw [hsaveBases, hs.saveLength]
    exact congrArg List.length hsaves.symm
  queueLength := by
    rw [hqueueBases, hs.queueLength]
    exact congrArg List.length hqueue.symm
  draft := hdraft
  saves := by
    rw [hsaveBases]
    intro base hbase
    exact (hs.saves base hbase).trans (congrArg some hrevision.symm)
  queue := by
    rw [hqueueBases]
    intro entry hentry horigin
    have hentry : entry ∈ t.queue.zip u.queueBases := hentry
    rw [hqueue] at hentry
    exact (hs.queue entry hentry horigin).trans (congrArg some hrevision.symm)
  inHand := by
    rw [hworkBase]
    intro work hwork' horigin
    exact (hs.inHand work (hwork work hwork') horigin).trans (congrArg some hrevision.symm)

/-- The popup and the revision stay as they are, and no completion goes. -/
theorem Based.draftBased {event : SettingsEvent} (hs : Based u) (hopens : u.opens event = false)
    (hpopup : t.runtime.app.settingsPopup.visible = u.system.runtime.app.settingsPopup.visible)
    (hrevision : t.runtime.settingsRevision = u.system.runtime.settingsRevision)
    (hcompletions : u.system.completions ⊆ t.completions) :
    DraftBased (u.observe event t).draftBase t := by
  intro hvisible
  have hbase : (u.observe event t).draftBase = u.draftBase := by
    unfold observe
    dsimp only
    rw [if_pos hvisible, if_neg (by rw [hopens]; exact Bool.false_ne_true)]
  rw [hbase, hrevision]
  exact (hs.draft (hpopup.symm.trans hvisible)).imp_right
    fun ⟨result, hresult⟩ => ⟨result, hcompletions hresult⟩

theorem subset_completions_answer (work : SettingsTransactionWork) (reply : TransactionReply) :
    s.completions ⊆ (s.answer work reply).completions := by
  unfold SettingsSystem.answer
  cases work.origin with
  | tui => exact List.subset_append_left _ _
  | mcp => exact fun _ h => h

/-- A request or a transaction ends without a commit. -/
theorem Based.answer {event : SettingsEvent} {runtime : AppRuntime globs}
    {work : SettingsTransactionWork} {reply : TransactionReply} (hs : Based u)
    (hevent : event = .finalize ∨ event = .abort ∨ event = .begin ∨ ∃ message, event = .withdraw message)
    (hopens : u.opens event = false)
    (hpopup : runtime.app.settingsPopup = u.system.runtime.app.settingsPopup)
    (hrevision : runtime.settingsRevision = u.system.runtime.settingsRevision) :
    Based (u.observe event ({ u.system with runtime }.answer work reply)) := by
  have hdraft := @Based.draftBased _ u ({ u.system with runtime }.answer work reply) event hs hopens
    (by rw [SettingsSystem.answer_runtime, hpopup]) (by rw [SettingsSystem.answer_runtime, hrevision])
    (@subset_completions_answer _ { u.system with runtime } work reply)
  have hwork : ∀ other, ({ u.system with runtime }.answer work reply).phase.work = some other →
      u.system.phase.work = some other := by
    rw [SettingsSystem.answer_phase]
    exact fun other h => by cases h
  rcases hevent with rfl | rfl | rfl | ⟨message, rfl⟩ <;>
    exact hs.keep rfl rfl rfl (SettingsSystem.answer_saves _ _) (SettingsSystem.answer_queue _ _)
      (by rw [SettingsSystem.answer_runtime, hrevision]) hwork hdraft

/-- An event of the terminal that asks for no save. -/
theorem based_shown {app : App} {event : TerminalEvent} (hs : Based u)
    (hhandled : u.system.runtime.app.Handled env event app)
    (hrevision : u.system.runtime.app.settingsRevision = u.system.runtime.settingsRevision) :
    Based (u.observe (.terminal event) (u.system.modifyApp fun _ => app)) := by
  have hsaveBases : (u.observe (.terminal event) (u.system.modifyApp fun _ => app)).saveBases =
      u.saveBases := if_neg (lt_irrefl _)
  refine hs.keep hsaveBases rfl rfl rfl rfl rfl (fun _ h => h) fun hvisible => ?_
  have hvisible : app.settingsPopup.visible = true := hvisible
  have hbase : (u.observe (.terminal event) (u.system.modifyApp fun _ => app)).draftBase =
      if u.opens (.terminal event) then some app.settingsRevision else u.draftBase :=
    if_pos hvisible
  rw [hbase]
  by_cases hopens : u.opens (.terminal event) = true
  · rw [if_pos hopens, hhandled.sameView.revision, hrevision]
    exact .inl rfl
  · rw [if_neg hopens]
    refine hs.draft ?_
    cases hhandled with
    | ignored => exact hvisible
    | focused focus hfocus hother => exact hvisible
    | opened hevent hfocus =>
      rw [hevent] at hopens
      exact absurd (decide_eq_true hfocus) hopens
    | noted error hactive => exact hvisible
    | edited current error hactive hpending => exact hvisible
    | closed hactive hpending => cases hvisible
    | saved hevent hactive hpending => exact hvisible

/-- A save takes the base of its draft with it. -/
theorem based_requested (hs : Based u) (hguarded : Guarded u.system)
    (hactive : u.system.runtime.app.settingsPopupActive = true)
    (hcompletions : u.system.completions = []) {draft : AppSettings} :
    Based (u.observe (.terminal (.popup .save))
      { u.system.modifyApp fun app => app.setSettingsTransactionPending true with
        saves := u.system.saves ++ [draft] }) := by
  have hvisible : u.system.runtime.app.settingsPopup.visible = true := by
    rw [App.settingsPopupActive, Bool.or_eq_true] at hactive
    rcases hactive with hfocus | hvisible
    · exact hguarded.active (of_decide_eq_true hfocus)
    · exact hvisible
  have hbase : u.draftBase = some u.system.runtime.settingsRevision := by
    rcases hs.draft hvisible with hbase | ⟨result, hresult⟩
    · exact hbase
    · rw [hcompletions] at hresult
      cases hresult
  have hsaveBases : (u.observe (.terminal (.popup .save))
      { u.system.modifyApp fun app => app.setSettingsTransactionPending true with
        saves := u.system.saves ++ [draft] }).saveBases = u.saveBases ++ [u.draftBase] := by
    refine if_pos ?_
    rw [List.length_append]
    exact Nat.lt_succ_self _
  have hdraftBase : (u.observe (.terminal (.popup .save))
      { u.system.modifyApp fun app => app.setSettingsTransactionPending true with
        saves := u.system.saves ++ [draft] }).draftBase = u.draftBase := if_pos hvisible
  refine ⟨?_, hs.queueLength, fun _ => .inl (hdraftBase.trans hbase), ?_, hs.queue, hs.inHand⟩
  · rw [hsaveBases, List.length_append, hs.saveLength]
    show _ = (u.system.saves ++ [draft]).length
    rw [List.length_append]
    rfl
  · rw [hsaveBases]
    intro base hmem
    rcases List.mem_append.1 hmem with hmem | hmem
    · exact hs.saves base hmem
    · rw [List.mem_singleton.1 hmem]
      exact hbase

/-- A work comes to the end of the queue with its base. -/
theorem Based.enqueue {event : SettingsEvent} {work : SettingsTransactionWork} {base : Option Nat}
    (hs : Based u) (hqueueBases : (u.observe event t).queueBases = u.queueBases ++ [base])
    (hqueue : t.queue = u.system.queue ++ [work])
    (hbase : work.origin = .tui → base = some u.system.runtime.settingsRevision)
    (hrevision : t.runtime.settingsRevision = u.system.runtime.settingsRevision) :
    (u.observe event t).queueBases.length = t.queue.length ∧
      ∀ entry ∈ t.queue.zip (u.observe event t).queueBases, entry.1.origin = .tui →
        entry.2 = some t.runtime.settingsRevision := by
  rw [hqueueBases, hqueue, hrevision]
  refine ⟨?_, ?_⟩
  · rw [List.length_append, List.length_append, hs.queueLength]
    rfl
  · rw [List.zip_append hs.queueLength.symm]
    intro entry hentry horigin
    rcases List.mem_append.1 hentry with hentry | hentry
    · exact hs.queue entry hentry horigin
    · rw [List.mem_singleton.1 hentry] at horigin ⊢
      exact hbase horigin

theorem based_submitted {mutation : MappingMutation} {expectedRevision : Nat} (hs : Based u) :
    Based (u.observe (.submit mutation expectedRevision)
      { u.system with
        queue := u.system.queue ++ [.mutateMapping mutation expectedRevision] }) := by
  obtain ⟨hlength, hqueue⟩ := @Based.enqueue _ _
    { u.system with queue := u.system.queue ++ [.mutateMapping mutation expectedRevision] }
    (.submit mutation expectedRevision) _ _ hs
    rfl rfl (fun h => by cases h) rfl
  exact ⟨hs.saveLength, hlength, hs.draftBased rfl rfl rfl fun _ h => h, hs.saves, hqueue, hs.inHand⟩

theorem based_saveSubmitted {index : Nat} {draft : AppSettings} (hs : Based u)
    (hsave : u.system.saves[index]? = some draft) :
    Based (u.observe (.submitSave index)
      { u.system with
        saves := u.system.saves.eraseIdx index
        queue := u.system.queue ++ [.replaceFromTui draft] }) := by
  have hindex : index < u.saveBases.length := by
    rw [hs.saveLength]
    exact (List.getElem?_eq_some_iff.1 hsave).1
  have hbase : u.saveBases[index]?.join = some u.system.runtime.settingsRevision := by
    rw [List.getElem?_eq_getElem hindex, Option.join_some]
    exact hs.saves _ (List.getElem_mem hindex)
  obtain ⟨hlength, hqueue⟩ := @Based.enqueue _ _
    { u.system with
      saves := u.system.saves.eraseIdx index
      queue := u.system.queue ++ [.replaceFromTui draft] } (.submitSave index) _ _ hs
    rfl rfl (fun _ => hbase) rfl
  refine ⟨?_, hlength, hs.draftBased rfl rfl rfl fun _ h => h, ?_, hqueue, hs.inHand⟩
  · have hbases := List.length_eraseIdx_add_one hindex
    have hsaves := List.length_eraseIdx_add_one (List.getElem?_eq_some_iff.1 hsave).1
    have hsame := hs.saveLength
    show (u.saveBases.eraseIdx index).length = (u.system.saves.eraseIdx index).length
    omega
  · exact fun base hmem => hs.saves base (List.mem_of_mem_eraseIdx hmem)

theorem based_received {work : SettingsTransactionWork} {queue : List SettingsTransactionWork}
    (hs : Based u) (hqueue : u.system.queue = work :: queue) :
    Based (u.observe .receive { u.system with queue, phase := .beginning work }) := by
  have hlength := hs.queueLength
  have hall := hs.queue
  rw [hqueue] at hlength hall
  cases hbases : u.queueBases with
  | nil =>
    rw [hbases] at hlength
    cases hlength
  | cons base bases =>
    rw [hbases] at hlength hall
    have hqueueBases : (u.observe .receive { u.system with queue, phase := .beginning work }
        ).queueBases = bases := congrArg List.tail hbases
    have hworkBase : (u.observe .receive { u.system with queue, phase := .beginning work }
        ).workBase = base := congrArg (fun bases => bases.head?.join) hbases
    refine ⟨hs.saveLength, ?_, hs.draftBased rfl rfl rfl fun _ h => h, hs.saves, ?_, ?_⟩
    · rw [hqueueBases]
      exact Nat.succ.inj hlength
    · rw [hqueueBases]
      exact fun entry hentry => hall entry (List.mem_cons_of_mem _ hentry)
    · rw [hworkBase]
      intro other hother horigin
      obtain rfl := Option.some.inj hother
      exact hall (work, base) List.mem_cons_self horigin

/-- After a commit no save waits, and a draft that is still open has committed. -/
theorem based_committed {work : SettingsTransactionWork} {begun : BeginSettingsTransactionReply}
    {commit : AdmittedSettingsCommit globs} (hs : Based u) (hsingle : Single u.system)
    (hguarded : Guarded u.system) (hphase : u.system.phase = .finalizing work begun commit)
    (held : u.system.Held work begun) (houtcome : commit.outcome = .committed)
    (hsaves : t.saves = u.system.saves) (hqueue : t.queue = u.system.queue)
    (hwork : t.phase.work = none)
    (hrevision : t.runtime.settingsRevision = t.runtime.app.settingsRevision)
    (hcompletions : work.origin = .tui →
      ∃ result, (Except.ok result : TransactionReply) ∈ t.completions) :
    Based (u.observe .finalize t) := by
  have hnone : u.system.waitingSaves = 0 := by
    by_contra hne
    have hfree := (hsingle.waits (Nat.pos_of_ne_zero hne)).2
    rw [held.pending] at hfree
    cases hfree
  unfold SettingsSystem.waitingSaves at hnone
  have hnosaves : u.system.saves = [] := List.length_eq_zero_iff.1 (by omega)
  have hnoqueue : u.system.queue.countP SettingsTransactionWork.isSave = 0 := by omega
  have hnobases : u.saveBases = [] := by
    rw [← List.length_eq_zero_iff, hs.saveLength, hnosaves]
    rfl
  have hsaveBases : (u.observe .finalize t).saveBases = [] := hnobases
  refine ⟨?_, ?_, ?_, ?_, ?_, ?_⟩
  · rw [hsaveBases]
    exact (congrArg List.length (hsaves.trans hnosaves)).symm
  · exact hs.queueLength.trans (congrArg List.length hqueue.symm)
  · intro hvisible
    have hbase : (u.observe .finalize t).draftBase =
        if u.opens .finalize then some t.runtime.app.settingsRevision else u.draftBase :=
      if_pos hvisible
    by_cases hopens : u.opens .finalize = true
    · rw [hbase, if_pos hopens]
      exact .inl (congrArg some hrevision.symm)
    · refine .inr (hcompletions ?_)
      have hdirty : u.system.runtime.app.settingsPopup.isDirty = true := by
        simpa [opens, hphase, houtcome] using hopens
      cases horigin : work.origin with
      | tui => rfl
      | mcp =>
        have hpending := held.pending
        rw [horigin] at hpending
        rw [hguarded.clean _ hpending] at hdirty
        cases hdirty
  · rw [hsaveBases]
    exact fun base h => by cases h
  · intro entry hentry horigin
    have hmem : entry.1 ∈ t.queue := (List.of_mem_zip hentry).1
    rw [hqueue] at hmem
    have hsave : entry.1.isSave = true := by rw [SettingsTransactionWork.isSave, horigin]; rfl
    exact absurd hsave (List.countP_eq_zero.1 hnoqueue _ hmem)
  · intro other hother
    have hother : t.phase.work = some other := hother
    rw [hwork] at hother
    cases hother

theorem based_completed {index : Nat} {reply : TransactionReply} (hs : Based u)
    (hsingle : Single u.system) (hreply : u.system.completions[index]? = some reply)
    (hvisible : ∀ error, reply = .error error →
      u.system.runtime.app.settingsPopup.visible = true) :
    Based (u.observe (.complete index)
      { u.system.modifyApp fun app => SettingsSystem.handleCompletion app reply with
        completions := u.system.completions.eraseIdx index }) := by
  refine hs.keep rfl rfl rfl rfl rfl rfl (fun _ h => h) fun hopen => ?_
  cases reply with
  | ok result => cases hopen
  | error error =>
    have hdraftBase : (u.observe (.complete index)
        { u.system.modifyApp fun app => SettingsSystem.handleCompletion app (.error error) with
          completions := u.system.completions.eraseIdx index }).draftBase = u.draftBase := by
      unfold observe
      dsimp only
      rw [if_pos hopen]
      rfl
    refine .inl (hdraftBase.trans ?_)
    rcases hs.draft (hvisible error rfl) with hbase | ⟨result, hresult⟩
    · exact hbase
    · have hone := hsingle.single
      have hsingleton : u.system.completions = [.error error] := by
        obtain ⟨hindex, hat⟩ := List.getElem?_eq_some_iff.1 hreply
        have hlength : u.system.completions.length = 1 := by omega
        obtain ⟨only, honly⟩ := List.length_eq_one_iff.1 hlength
        have hmem := List.mem_of_getElem? hreply
        rw [honly] at hmem ⊢
        rw [List.mem_singleton.1 hmem]
      rw [hsingleton] at hresult
      cases List.mem_singleton.1 hresult

theorem based_of_stepped {event : SettingsEvent}
    (h : SettingsSystem.Stepped env u.system event t) (hs : Inv env u) (hprompt : u.Prompt event) :
    Based (u.observe event t) := by
  have hbased := hs.based
  have hcongr : ∀ {event : SettingsEvent} {t : SettingsSystem globs},
      (u.observe event t).saveBases = u.saveBases → (u.observe event t).queueBases = u.queueBases →
      (u.observe event t).workBase = u.workBase → u.opens event = false →
      t.saves = u.system.saves → t.queue = u.system.queue → t.completions = u.system.completions →
      t.runtime.settingsRevision = u.system.runtime.settingsRevision →
      t.runtime.app.settingsPopup = u.system.runtime.app.settingsPopup →
      t.phase.work = u.system.phase.work → Based (u.observe event t) := by
    intro event t hsaveBases hqueueBases hworkBase hopens hsaves hqueue hcompletions hrevision
      hpopup hwork
    refine hbased.keep hsaveBases hqueueBases hworkBase hsaves hqueue hrevision
      (fun work h => hwork.symm.trans h) ?_
    exact hbased.draftBased hopens (by rw [hpopup]) hrevision (by rw [hcompletions]; exact fun _ h => h)
  cases h with
  | terminal event =>
    have heffect := (@SettingsSystem.terminalEffect env) hs.settled.save event
    generalize (u.system.modifyApp fun app => app.handleTerminalEvent env event
      ).handleSettingsSaveRequest = t at heffect
    cases heffect with
    | shown app hhandled hsave => exact based_shown hbased hhandled hs.settled.agrees.revision
    | requested hevent hactive hpending =>
      subst hevent
      exact based_requested hbased hs.guarded hactive (hprompt hpending)
  | submitted mutation expectedRevision => exact based_submitted hbased
  | saveSubmitted index draft hsave => exact based_saveSubmitted hbased hsave
  | received work queue hphase hqueue => exact based_received hbased hqueue
  | withdrawn message work hphase =>
    exact @Based.answer _ _ _ u.system.runtime _ _ hbased (.inr (.inr (.inr ⟨message, rfl⟩))) rfl rfl
      rfl
  | refused work error hphase hcheck =>
    exact @Based.answer _ _ _ u.system.runtime _ _ hbased (.inr (.inr (.inl rfl))) rfl rfl rfl
  | begun work hphase hcheck => exact hcongr rfl rfl rfl rfl rfl rfl rfl rfl rfl (by rw [hphase]; rfl)
  | rejected work begun error hphase hprepare =>
    exact hcongr rfl rfl rfl rfl rfl rfl rfl rfl rfl (by rw [hphase]; rfl)
  | unchanged work begun candidate hphase hprepare heffect =>
    exact hcongr rfl rfl rfl rfl rfl rfl rfl rfl rfl (by rw [hphase]; rfl)
  | prepared work begun candidate hphase hprepare heffect =>
    exact hcongr rfl rfl rfl rfl rfl rfl rfl rfl rfl (by rw [hphase]; rfl)
  | failed failure work begun hphase =>
    refine hcongr rfl rfl rfl rfl rfl rfl rfl rfl rfl ?_
    rcases hphase with hphase | ⟨candidate, hphase⟩ <;> (rw [hphase]; rfl)
  | persisted work begun candidate hphase =>
    exact hcongr rfl rfl rfl rfl rfl rfl rfl rfl rfl (by rw [hphase]; rfl)
  | finalized work begun commit hphase =>
    have hcommit := hs.settled.sound.phase
    rw [hphase] at hcommit
    have hended := SettingsSystem.finalizeTransaction_ended hcommit.1 hcommit.2
    generalize u.system.finalizeTransaction work begun commit = t at hended
    cases hended with
    | unchanged outcome =>
      refine hbased.answer (.inl rfl) ?_ rfl rfl
      simp [opens, hphase, outcome]
    | committed outcome app happ =>
      obtain ⟨-, hrevision, -, -⟩ := App.applyCommit_eq_ok happ
      refine based_committed hbased hs.single hs.guarded hphase hcommit.1 outcome
        (SettingsSystem.answer_saves _ _) (SettingsSystem.answer_queue _ _) ?_ ?_ ?_
      · rw [SettingsSystem.answer_phase]
        rfl
      · rw [SettingsSystem.answer_runtime]
        exact hrevision.symm
      · intro horigin
        refine ⟨SettingsSystem.finishResult begun commit .committed, ?_⟩
        unfold SettingsSystem.answer
        rw [horigin]
        exact List.mem_append_right _ (List.mem_singleton_self _)
    | torn outcome error happ =>
      obtain ⟨horigin, hdirty⟩ := App.applyCommit_eq_error happ
      have hpending := hcommit.1.pending
      rw [horigin] at hpending
      rw [hs.guarded.clean _ hpending] at hdirty
      cases hdirty
  | aborted work begun error hphase =>
    have held := hs.settled.sound.phase
    rw [hphase] at held
    rw [SettingsSystem.abortTransaction_eq held]
    exact hbased.answer (.inr (.inl rfl)) rfl rfl rfl
  | completed index reply hreply =>
    refine based_completed hbased hs.single hreply fun error herror => ?_
    have hvisible := hprompt.2
    rw [hreply, herror] at hvisible
    exact hvisible
  | readSettings => exact hcongr rfl rfl rfl rfl rfl rfl rfl rfl rfl rfl
  | readPreview expectedRevision => exact hcongr rfl rfl rfl rfl rfl rfl rfl rfl rfl rfl

theorem inv_start (context : SettingsUiContext) (settings : AppSettings) :
    Inv env (start env globs context settings) where
  settled := SettingsSystem.settled_start context settings
  guarded :=
    { active := fun h => by cases h
      waits := fun h => by cases h
      clean := fun token h => by cases h }
  single := ⟨Nat.zero_le _, fun h => absurd h (lt_irrefl 0)⟩
  expects :=
    { queue := fun work h => by cases h
      inHand := fun work h => by cases h
      begun := fun work begun revision h => by cases h }
  based :=
    { saveLength := rfl
      queueLength := rfl
      draft := fun h => by cases h
      saves := fun base h => by cases h
      queue := fun entry h => by cases h
      inHand := fun work h => by cases h }

/-- A prompt step keeps the invariant. -/
theorem inv_of_stepped {event : SettingsEvent} (h : SettingsSystem.Stepped env u.system event t)
    (hs : Inv env u) (hprompt : u.Prompt event) : Inv env (u.observe event t) := by
  have hfree : ∀ index, event = .complete index →
      u.system.runtime.pendingSettingsTransaction = none := by
    rintro index rfl
    exact hprompt.1
  have hsave : event = .terminal (.popup .save) →
      u.system.runtime.app.settingsTransactionPending = false → u.system.completions = [] := by
    rintro rfl
    exact hprompt
  exact
    { settled := SettingsSystem.settled_of_stepped h hs.settled
        (timely_of_prompt hprompt hs.settled.sound hs.guarded)
      guarded := guarded_of_stepped h hs.guarded hs.settled hfree
      single := single_of_stepped h hs.single hs.settled hs.guarded hsave hfree
      expects := expects_of_stepped h hs.expects
      based := based_of_stepped h hs hprompt }

/-! ## Every step keeps what it must -/

theorem quiet_answer {runtime : AppRuntime globs} {work : SettingsTransactionWork}
    {reply : TransactionReply} (hsettings : runtime.settings = s.runtime.settings)
    (hpolicy : runtime.requestPolicy = s.runtime.requestPolicy)
    (hrevision : runtime.settingsRevision = s.runtime.settingsRevision) :
    Quiet s ({ s with runtime }.answer work reply) := by
  constructor <;> rw [SettingsSystem.answer_runtime]
  · exact hsettings
  · exact hpolicy
  · exact hrevision

theorem told_answer (runtime : AppRuntime globs) (work : SettingsTransactionWork)
    (reply : TransactionReply) : Told work reply s ({ s with runtime }.answer work reply) := by
  unfold Told SettingsSystem.answer
  cases work.origin <;> exact ⟨rfl, rfl⟩

theorem commits_of_ended {work : SettingsTransactionWork} {begun : BeginSettingsTransactionReply}
    {commit : AdmittedSettingsCommit globs} {app : App} (hs : Inv env u)
    (hphase : u.system.phase = .finalizing work begun commit)
    (hroom : u.system.runtime.settingsRevision < wordMax) (houtcome : commit.outcome = .committed) :
    Commits env u work begun commit
      ({ u.system with runtime := { u.system.installed env commit with
          app, pendingSettingsTransaction := none } }.answer work
        (.ok (SettingsSystem.finishResult begun commit .committed))) := by
  have hsound := hs.settled.sound.phase
  rw [hphase] at hsound
  obtain ⟨held, hcommit⟩ := hsound
  have hwork : u.system.phase.work = some work := by rw [hphase]; rfl
  have hbegun : u.system.phase.begun = some begun := by rw [hphase]; rfl
  constructor
  case phase => exact hphase
  case base => exact hs.based.inHand work hwork
  case expected =>
    intro horigin
    obtain ⟨revision, hexpected⟩ :=
      Option.isSome_iff_exists.1 (hs.expects.inHand work hwork horigin)
    rw [hexpected, held.revision, hs.expects.begun work begun revision hwork hbegun hexpected]
  case settingsHandedOut => exact held.settings
  case revisionHandedOut => exact held.revision
  case applied =>
    cases hcommit with
    | committed outcome applied policy => exact applied
    | unchanged outcome applied settings =>
      rw [houtcome] at outcome
      cases outcome
  case settings =>
    rw [SettingsSystem.answer_runtime]
    rfl
  case policy =>
    rw [SettingsSystem.answer_runtime]
    rfl
  case revision =>
    rw [SettingsSystem.answer_runtime]
    exact Nat.min_eq_left hroom
  case told => exact told_answer _ work _

theorem stepKept_of_stepped {event : SettingsEvent}
    (h : SettingsSystem.Stepped env u.system event t) (hs : Inv env u) (hprompt : u.Prompt event) :
    StepKept env u event (u.observe event t) := by
  have hquiet : ∀ {t : SettingsSystem globs}, SettingsSystem.SameService u.system t →
      Quiet u.system t := fun hsame => ⟨hsame.settings, hsame.policy, hsame.revision⟩
  cases h with
  | terminal event => exact .inl (hquiet (SettingsSystem.sameService_terminal _ _))
  | submitted mutation expectedRevision => exact .inl ⟨rfl, rfl, rfl⟩
  | saveSubmitted index draft hsave => exact .inl ⟨rfl, rfl, rfl⟩
  | received work queue hphase hqueue => exact .inl ⟨rfl, rfl, rfl⟩
  | withdrawn message work hphase =>
    exact .inl ((@quiet_answer _ _ u.system.runtime) rfl rfl rfl)
  | refused work error hphase hcheck =>
    exact .inl ((@quiet_answer _ _ u.system.runtime) rfl rfl rfl)
  | begun work hphase hcheck => exact .inl ⟨rfl, rfl, rfl⟩
  | rejected work begun error hphase hprepare => exact .inl ⟨rfl, rfl, rfl⟩
  | unchanged work begun candidate hphase hprepare heffect => exact .inl ⟨rfl, rfl, rfl⟩
  | prepared work begun candidate hphase hprepare heffect => exact .inl ⟨rfl, rfl, rfl⟩
  | failed failure work begun hphase => exact .inl ⟨rfl, rfl, rfl⟩
  | persisted work begun candidate hphase => exact .inl ⟨rfl, rfl, rfl⟩
  | finalized work begun commit hphase =>
    have hcommit := hs.settled.sound.phase
    rw [hphase] at hcommit
    have hended := SettingsSystem.finalizeTransaction_ended hcommit.1 hcommit.2
    generalize u.system.finalizeTransaction work begun commit = t at hended
    cases hended with
    | unchanged outcome => exact .inl (quiet_answer rfl rfl rfl)
    | committed outcome app happ =>
      exact .inr ⟨rfl, work, begun, commit, commits_of_ended hs hphase
        (hprompt work begun commit hphase outcome) outcome⟩
    | torn outcome error happ =>
      obtain ⟨horigin, hdirty⟩ := App.applyCommit_eq_error happ
      have hpending := hcommit.1.pending
      rw [horigin] at hpending
      rw [hs.guarded.clean _ hpending] at hdirty
      cases hdirty
  | aborted work begun error hphase =>
    have held := hs.settled.sound.phase
    rw [hphase] at held
    rw [SettingsSystem.abortTransaction_eq held]
    exact .inl (quiet_answer rfl rfl rfl)
  | completed index reply hreply => exact .inl ⟨rfl, rfl, rfl⟩
  | readSettings => exact .inl ⟨rfl, rfl, rfl⟩
  | readPreview expectedRevision => exact .inl ⟨rfl, rfl, rfl⟩

/-! ## Runs -/

theorem step_eq_some {event : SettingsEvent} {v : Tracked globs} (h : u.step env event = some v) :
    SettingsSystem.Stepped env u.system event v.system ∧ v = u.observe event v.system := by
  obtain ⟨t, hstep, rfl⟩ := Option.map_eq_some_iff.1 h
  exact ⟨SettingsSystem.stepped_of_step hstep, rfl⟩

theorem inv_of_run {events : List SettingsEvent} {u v : Tracked globs} (hs : Inv env u)
    (hprompt : Along (step env) Prompt u events) (hrun : run (step env) u events = some v) :
    Inv env v := by
  refine run_invariant_along (I := Inv env) (fun u event v hs hprompt h => ?_) hs hprompt hrun
  obtain ⟨hstepped, heq⟩ := step_eq_some h
  rw [heq]
  exact inv_of_stepped hstepped hs hprompt

/-- Revisions only grow, and settings change with the revision only. -/
def Since (u v : Tracked globs) : Prop :=
  u.system.runtime.settingsRevision ≤ v.system.runtime.settingsRevision ∧
    (v.system.runtime.settingsRevision = u.system.runtime.settingsRevision →
      v.system.runtime.settings = u.system.runtime.settings)

theorem Since.step {u v w : Tracked globs} {event : SettingsEvent} (h : Since u v)
    (hkept : StepKept env v event w) : Since u w := by
  obtain ⟨hle, hsame⟩ := h
  rcases hkept with hquiet | ⟨-, work, begun, commit, hcommit⟩
  · unfold Since
    rw [hquiet.revision, hquiet.settings]
    exact ⟨hle, hsame⟩
  · have hrevision := hcommit.revision
    exact ⟨by omega, fun heq => by omega⟩

theorem since_of_run {events : List SettingsEvent} {u v : Tracked globs} (hs : Inv env u)
    (hprompt : Along (step env) Prompt u events) (hrun : run (step env) u events = some v) :
    Since u v := by
  have hboth : Inv env v ∧ Since u v := by
    refine run_invariant_along (I := fun v => Inv env v ∧ Since u v)
      (fun v event w hv hprompt h => ?_) ⟨hs, le_rfl, fun _ => rfl⟩ hprompt hrun
    obtain ⟨hstepped, heq⟩ := step_eq_some h
    rw [heq]
    exact ⟨inv_of_stepped hstepped hv.1 hprompt,
      hv.2.step (stepKept_of_stepped hstepped hv.1 hprompt)⟩
  exact hboth.2

/-- In a run whose steps are all prompt no update is lost. -/
theorem noUpdateLost (context : SettingsUiContext) (settings : AppSettings)
    {events : List SettingsEvent}
    (hprompt : Along (step env) Prompt (start env globs context settings) events) :
    NoUpdateLost env globs context settings events := by
  constructor
  · rintro pre event post u v rfl hrun hstep
    have hs := inv_of_run (inv_start context settings) hprompt.append_left hrun
    obtain ⟨hstepped, heq⟩ := step_eq_some hstep
    rw [heq]
    exact stepKept_of_stepped hstepped hs (hprompt.append_right hrun).1
  · rintro pre mid post u v rfl hrun hmid
    rw [List.append_assoc] at hprompt
    have hs := inv_of_run (inv_start context settings) hprompt.append_left hrun
    exact (since_of_run hs (hprompt.append_right hrun).append_left hmid).2

instance decidablePrompt (u : Tracked globs) : ∀ event, Decidable (Prompt u event)
  | .terminal (.popup .save) => inferInstanceAs (Decidable (_ → _))
  | .complete index =>
    haveI : Decidable (match u.system.completions[index]? with
        | some (.ok result) =>
          result.settings = u.system.runtime.settings ∧
            result.revision = u.system.runtime.settingsRevision
        | some (.error _) => u.system.runtime.app.settingsPopup.visible = true
        | none => True) :=
      match u.system.completions[index]? with
      | some (.ok _) => inferInstanceAs (Decidable (_ ∧ _))
      | some (.error _) => inferInstanceAs (Decidable (_ = true))
      | none => .isTrue trivial
    inferInstanceAs (Decidable (_ ∧ _))
  | .finalize =>
    match h : u.system.phase with
    | .finalizing _ _ commit =>
      decidable_of_iff
        (commit.outcome = .committed → u.system.runtime.settingsRevision < wordMax)
        ⟨fun hall _ _ _ hphase houtcome => by
          rw [h] at hphase
          cases hphase
          exact hall houtcome,
         fun hall => hall _ _ commit h⟩
    | .idle | .beginning _ | .admitted _ _ | .prepared _ _ _ | .aborting _ _ _ =>
      .isTrue fun _ _ _ hphase => by
        rw [h] at hphase
        cases hphase
  | .terminal .openSettings | .terminal .openCertificate | .terminal .closeCertificate
  | .terminal (.popup (.edit _ _)) | .terminal (.popup .close) | .submit _ _ | .submitSave _
  | .receive | .withdraw _ | .begin | .prepare | .fail _ | .persist | .abort | .getMappingSettings
  | .previewMappingSnapshot _ => .isTrue trivial

/-- A save of the popup, and after it a mutation. -/
def saveThenMutate : List SettingsEvent :=
  let expanded : AppSettings :=
    { ui := { requestList := { autoExpand := true } }, proxy := some switchedOff }
  [.terminal .openSettings, .terminal (.popup (.edit expanded none)), .terminal (.popup .save),
    .submitSave 0, .receive, .begin, .prepare, .persist, .finalize, .complete 0,
    .submit (.setGlobalEnabled true) 2, .receive, .begin, .prepare, .persist, .finalize]

theorem noUpdateLost_sample :
    NoUpdateLost sampleEnvironment sampleGlobset sampleContext { proxy := some switchedOff }
      saveThenMutate :=
  noUpdateLost sampleContext { proxy := some switchedOff } (by decide +kernel)

/-- The completion of a save is taken after a mutation has committed: the next draft is
opened from the settings before the mutation. -/
def lateOverwrite : List SettingsEvent :=
  let expanded : AppSettings :=
    { ui := { requestList := { autoExpand := true } }, proxy := some switchedOff }
  let moved : AppSettings := { expanded with server := { port := 9000 } }
  [.terminal .openSettings, .terminal (.popup (.edit expanded none)), .terminal (.popup .save),
    .submitSave 0, .receive, .begin, .prepare, .persist, .finalize, .terminal (.popup .close),
    .submit (.setGlobalEnabled true) 2, .receive, .begin, .prepare, .persist, .finalize,
    .complete 0, .terminal .openSettings, .terminal (.popup (.edit moved none)),
    .terminal (.popup .save), .submitSave 0, .receive, .begin, .prepare, .persist]

/-- The mutation is overwritten by a draft that was opened before it. -/
theorem lateOverwrite_loses_mutation :
    ¬ ∀ (env : Environment) (globs : Globset) (context : SettingsUiContext)
      (settings : AppSettings) (events : List SettingsEvent),
      NoUpdateLost env globs context settings events := by
  intro h
  have hbefore : (run (step sampleEnvironment)
      (start sampleEnvironment sampleGlobset sampleContext { proxy := some switchedOff })
      lateOverwrite).map
      (fun u => (u.workBase, u.system.runtime.settingsRevision,
        u.system.phase.work.map SettingsTransactionWork.origin)) =
      some (some 2, 3, some .tui) := by
    decide +kernel
  have hafter : (run (step sampleEnvironment)
      (start sampleEnvironment sampleGlobset sampleContext { proxy := some switchedOff })
      (lateOverwrite ++ [.finalize])).map (fun u => u.system.runtime.settingsRevision) = some 4 := by
    decide +kernel
  obtain ⟨v, hv, hrevision⟩ := Option.map_eq_some_iff.1 hafter
  obtain ⟨u, hu, hstep⟩ := run_snoc_eq_some.1 hv
  rw [hu, Option.map_some, Option.some.injEq] at hbefore
  obtain ⟨hbase, hrest⟩ := Prod.mk.inj hbefore
  obtain ⟨hcurrent, horigin⟩ := Prod.mk.inj hrest
  have hkept := (h sampleEnvironment sampleGlobset sampleContext { proxy := some switchedOff }
    (lateOverwrite ++ [.finalize])).1 lateOverwrite .finalize [] u v rfl hu hstep
  rcases hkept with hquiet | ⟨-, work, begun, commit, hcommit⟩
  · rw [hquiet.revision, hcurrent] at hrevision
    cases hrevision
  · have hwork : u.system.phase.work = some work := by rw [hcommit.phase]; rfl
    rw [hwork, Option.map_some, Option.some.injEq] at horigin
    have hbad := hcommit.base horigin
    rw [hbase, hcurrent] at hbad
    cases hbad

end Tracked

end Fluxcope.Settings
