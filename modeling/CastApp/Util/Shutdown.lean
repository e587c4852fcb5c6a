import CastApp.Verified.WatchChannel

/-!
# The shutdown token

A `watch` channel of a boolean that only ever turns from `false` to `true`.
`trigger` publishes `true` again each time it is called, so the version may
move more than once; `Shutdown.WellFormed` records that no version but the
first carries `false`.
-/

namespace CastApp.Util

open CastApp.Verified.WatchChannel

abbrev Shutdown : Type := Watch Bool

namespace Shutdown

def new : Shutdown := Watch.channel false

def subscribe (token : Shutdown) : Receiver := Watch.subscribe token

def isShuttingDown (token : Shutdown) : Bool := token.value

def trigger (token : Shutdown) : Shutdown := Watch.send token true

/-- The token is running exactly while nothing has been sent. -/
def WellFormed (token : Shutdown) : Prop :=
  token.value = false ↔ token.version = 0

theorem wellFormed_new : WellFormed new := Iff.intro (fun _ => rfl) fun _ => rfl

theorem wellFormed_trigger (token : Shutdown) : WellFormed token.trigger := by
  constructor
  · intro h
    cases h
  · intro h
    cases h

/-- A receiver that has seen nothing is ready once the token has been
triggered. -/
theorem ready_of_unseen {token : Shutdown} {r : Receiver} (hToken : WellFormed token)
    (hSeen : r.seen = 0) (hTriggered : token.isShuttingDown = true) : r.Ready token := by
  intro hSame
  have hVersion : token.version = 0 := hSame.symm.trans hSeen
  have hRunning : token.value = false := hToken.mpr hVersion
  exact Bool.false_ne_true (hRunning.symm.trans hTriggered)

/-- It is not before. -/
theorem not_ready_of_running {token : Shutdown} {r : Receiver} (hToken : WellFormed token)
    (hSeen : r.seen = 0) (hRunning : token.isShuttingDown = false) : ¬ r.Ready token := by
  intro hReady
  have hVersion : token.version = 0 := hToken.mp hRunning
  exact hReady (hSeen.trans hVersion.symm)

/-- A receiver taken from a running token has seen nothing. -/
theorem subscribe_unseen {token : Shutdown} (hToken : WellFormed token)
    (hRunning : token.isShuttingDown = false) : token.subscribe.seen = 0 :=
  hToken.mp hRunning

end Shutdown

end CastApp.Util
