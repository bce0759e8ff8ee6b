import WorkerGuard.Program
import WorkerGuard.Settings.Basic

/-!
# WorkerGuard.Alert

Operators are alerted when tasks of a role are given up too often.

* `Alert`: what they are told.
* `Alert.check`: counts what the log holds of a role within the window and after the last alert
  that this process raised for it.

`check` embeds `record` of `DegradeAlerter`, with the start of the window from `pending_at`. `Alert`
is `OperatorAlert`.
-/

namespace WorkerGuard

structure Alert where
  role : String
  count : Nat
  window : Duration
  raisedAt : Instant
  deriving DecidableEq

namespace Alert

/-- Artifacts count from the later of the start of the window and the last alert. -/
def since (now : Instant) (window : Duration) (last : Option Instant) : Instant :=
  match last with
  | some t => max t (now.before window)
  | none => now.before window

def threshold (s : Settings.Alerts) : Nat := max s.threshold.toNat 1

/-- To be done after a task of the role was recorded in the log. A log that cannot be read raises no
alert. -/
def check (s : Settings.Alerts) (role : String) : Program (Option Alert) := do
  let now ← Program.call .now
  let last ← Program.call (.lastAlert role)
  match ← Program.call .readLog with
  | .error _ => return none
  | .ok artifacts =>
    let count := Log.countSince role (since now s.window last) artifacts
    if count < threshold s then return none
    else
      Program.call (.setLastAlert role now)
      return some ⟨role, count, s.window, now⟩

end Alert
end WorkerGuard
