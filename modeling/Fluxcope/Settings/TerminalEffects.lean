import Fluxcope.Settings.TransactionInvariants
/-!
# What the terminal does to the application

Every event of the terminal is given its effect on the popup and on the save that is
asked for.  None of them touches the settings or the revision that the application
shows.
-/

namespace Fluxcope.Settings

open Fluxcope.Library Fluxcope.Mapping

variable {env : Environment} {globs : Globset}

namespace App

/-- The application with something else in its popup. -/
def withPopup (app : App) (settingsPopup : SettingsPopup) : App := { app with settingsPopup }

/-- The effect of an event on an application that has no save to ask for. -/
inductive Handled (env : Environment) (app : App) (event : TerminalEvent) : App → Prop
  | ignored : Handled env app event app
  | focused (focus : Option PopupFocus) (hfocus : focus ≠ some .settings)
      (hother : app.popupFocus ≠ some .settings) : Handled env app event { app with popupFocus := focus }
  | opened (hevent : event = .openSettings) (hfocus : app.popupFocus = none) :
      Handled env app event app.openSettingsPopup
  | noted (error : String) (hactive : app.settingsPopupActive = true) :
      Handled env app event
        (app.withPopup { app.settingsPopup with draft := app.settingsPopup.draft.setError error })
  | edited (current : AppSettings) (error : Option String)
      (hactive : app.settingsPopupActive = true)
      (hpending : app.settingsTransactionPending = false) :
      Handled env app event
        (app.withPopup
          { app.settingsPopup with draft := { app.settingsPopup.draft with current, error } })
  | closed (hactive : app.settingsPopupActive = true)
      (hpending : app.settingsTransactionPending = false) : Handled env app event app.closeSettingsPopup
  | saved (hevent : event = .popup .save) (hactive : app.settingsPopupActive = true)
      (hpending : app.settingsTransactionPending = false) :
      Handled env app event { app with pendingSettingsSave := some app.settingsPopup.draft.current }

theorem handled_save {app : App} (hactive : app.settingsPopupActive = true)
    (hpending : ¬ app.settingsTransactionPending = true) :
    Handled env app (.popup .save) (app.handlePopupEvent env .save) := by
  unfold handlePopupEvent
  rw [if_neg hpending]
  simp only [SettingsPopup.handle, SettingsPopup.saveAction]
  split
  · unfold handleSettingsPopupAction queueSettingsSave
    dsimp only
    rw [if_neg hpending]
    exact .saved rfl hactive (Bool.not_eq_true _ ▸ hpending)
  · rename_i error _
    exact .noted error hactive

theorem handled_popup {app : App} (event : PopupEvent) (hactive : app.settingsPopupActive = true) :
    Handled env app (.popup event) (app.handlePopupEvent env event) := by
  by_cases hpending : app.settingsTransactionPending = true
  · unfold handlePopupEvent
    rw [if_pos hpending]
    exact .noted _ hactive
  · cases event with
    | edit current error =>
      unfold handlePopupEvent
      rw [if_neg hpending]
      exact .edited current error hactive (Bool.not_eq_true _ ▸ hpending)
    | save => exact handled_save hactive hpending
    | close =>
      unfold handlePopupEvent
      rw [if_neg hpending]
      unfold SettingsPopup.handle handleSettingsPopupAction
      dsimp only
      rw [if_neg hpending]
      exact .closed hactive (Bool.not_eq_true _ ▸ hpending)

theorem handled_terminal (app : App) (event : TerminalEvent) :
    Handled env app event (app.handleTerminalEvent env event) := by
  unfold handleTerminalEvent
  cases event with
  | openSettings =>
    dsimp only
    split
    case isTrue hfocus => exact .opened rfl hfocus
    case isFalse => exact .ignored
  | openCertificate =>
    dsimp only
    split
    case isTrue hfocus => exact .focused (some .certificate) (by decide) (by rw [hfocus]; decide)
    case isFalse => exact .ignored
  | closeCertificate =>
    dsimp only
    split
    case isTrue hfocus => exact .focused none (by decide) (by rw [hfocus]; decide)
    case isFalse => exact .ignored
  | popup event =>
    dsimp only
    split
    case isTrue hactive => exact handled_popup event hactive
    case isFalse => exact .ignored

/-- Only a save in the popup is asked for. -/
theorem Handled.save_cases {app app' : App} {event : TerminalEvent} (h : Handled env app event app')
    (hsave : app.pendingSettingsSave = none) :
    app'.pendingSettingsSave = none ∨
      (event = .popup .save ∧ app.settingsPopupActive = true ∧
        app.settingsTransactionPending = false ∧
        app' = { app with pendingSettingsSave := some app.settingsPopup.draft.current }) := by
  cases h with
  | ignored => exact .inl hsave
  | focused focus hfocus hother => exact .inl hsave
  | opened hevent hfocus => exact .inl hsave
  | noted error hactive => exact .inl hsave
  | edited current error hactive hpending => exact .inl hsave
  | closed hactive hpending => exact .inl hsave
  | saved hevent hactive hpending => exact .inr ⟨hevent, hactive, hpending, rfl⟩

/-- The settings that the application shows, and whether it waits for a transaction. -/
structure SameView (app app' : App) : Prop where
  settings : app'.settings = app.settings
  revision : app'.settingsRevision = app.settingsRevision
  pending : app'.settingsTransactionPending = app.settingsTransactionPending

theorem Handled.sameView {app app' : App} {event : TerminalEvent}
    (h : Handled env app event app') : SameView app app' := by
  cases h <;> exact ⟨rfl, rfl, rfl⟩

end App

namespace SettingsSystem

variable {s t : SettingsSystem globs}

/-- The effect of an event of the terminal on the system: the application changes, or
a save is on its way. -/
inductive TerminalEffect (env : Environment) (s : SettingsSystem globs) (event : TerminalEvent) :
    SettingsSystem globs → Prop
  | shown (app : App) (hhandled : s.runtime.app.Handled env event app)
      (hsave : app.pendingSettingsSave = none) : TerminalEffect env s event (s.modifyApp fun _ => app)
  | requested (hevent : event = .popup .save) (hactive : s.runtime.app.settingsPopupActive = true)
      (hpending : s.runtime.app.settingsTransactionPending = false) :
      TerminalEffect env s event
        { s.modifyApp fun app => app.setSettingsTransactionPending true with
          saves := s.saves ++ [s.runtime.app.settingsPopup.draft.current] }

theorem terminalEffect (hsave : s.runtime.app.pendingSettingsSave = none) (event : TerminalEvent) :
    TerminalEffect env s event
      (s.modifyApp fun app => app.handleTerminalEvent env event).handleSettingsSaveRequest := by
  have hhandled := @App.handled_terminal env s.runtime.app event
  rcases hhandled.save_cases hsave with hnone | ⟨hevent, hactive, hpending, happ⟩
  · have hresult : (s.modifyApp fun app => app.handleTerminalEvent env event
        ).handleSettingsSaveRequest =
        s.modifyApp fun _ => s.runtime.app.handleTerminalEvent env event := by
      simp [handleSettingsSaveRequest, modifyApp, App.takeSettingsSaveRequest, hnone]
    rw [hresult]
    exact .shown _ hhandled hnone
  · have hresult : (s.modifyApp fun app => app.handleTerminalEvent env event
        ).handleSettingsSaveRequest =
        { s.modifyApp fun app => app.setSettingsTransactionPending true with
          saves := s.saves ++ [s.runtime.app.settingsPopup.draft.current] } := by
      simp [handleSettingsSaveRequest, modifyApp, App.takeSettingsSaveRequest, happ, hpending,
        App.setSettingsTransactionPending, hsave]
    rw [hresult]
    exact .requested hevent hactive hpending

end SettingsSystem

end Fluxcope.Settings
