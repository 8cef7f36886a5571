import Mathlib.Tactic.Common

/-!
# `DBusNameListener`: the last known presence of a service

The listener turns the notifications of the bus, and the answer to the initial `NameHasOwner` query
when there was one, into `nameAppeared` and `nameDisappeared`, each emitted when the presence known
so far changes.
-/

namespace ContextSubscriber

/-- `DBusNameListener::ServicePresence` -/
inductive ServicePresence
  | notPresent
  | present
  | unknown
  deriving DecidableEq

/-- The listener, as far as its state goes. -/
structure DBusNameListener where
  servicePresent : ServicePresence
  deriving DecidableEq

namespace DBusNameListener

/-- The constructors: nothing is known yet. -/
def init : DBusNameListener := ⟨.unknown⟩

/-- The service is registered.  The result tells whether `nameAppeared` is emitted. -/
def setServicePresent (l : DBusNameListener) : DBusNameListener × Bool :=
  if l.servicePresent ≠ .present then ({ l with servicePresent := .present }, true) else (l, false)

/-- The service is unregistered.  The result tells whether `nameDisappeared` is emitted. -/
def setServiceGone (l : DBusNameListener) : DBusNameListener × Bool :=
  if l.servicePresent ≠ .notPresent then
    ({ l with servicePresent := .notPresent }, true)
  else (l, false)

/-- The answer to the initial query: whether the name has an owner. -/
def onNameHasOwnerFinished (l : DBusNameListener) (hasOwner : Bool) : DBusNameListener × Bool :=
  if hasOwner then l.setServicePresent else l.setServiceGone

end DBusNameListener

end ContextSubscriber
