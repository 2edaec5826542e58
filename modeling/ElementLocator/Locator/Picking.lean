import ElementLocator.Locator

/-!
# Picking by clicks

A click picks a node only after a pick was asked for. Clicks inside the host, which is the tool's own part of the
page, are never picks and do not use up the request; any other click does.
-/

namespace ElementLocator.Locator

/-- What is being picked, and where clicks do not count. -/
structure Picking where
  pending : Option Scope := none
  host : Option NodeId := none
  deriving Repr, DecidableEq

/-- What a click did. -/
inductive ClickOutcome where
  | notPicking
  | insideHost
  | picked (scope : Scope)
  deriving Repr, DecidableEq

namespace Picking

/-- Asks for a pick; a request that is still open is replaced. -/
def ask (p : Picking) (scope : Scope) : Picking := { p with pending := some scope }

/-- Takes the request back. -/
def stop (p : Picking) : Picking := { p with pending := none }

/-- A click on a node: its outcome, and what is then picked and asked for. A refused pick uses up the request and
leaves the locator as it was. -/
def click (p : Picking) (l : Locator) (n : NodeId) : Except Error ClickOutcome × Locator × Picking :=
  match p.pending with
  | none => (.ok .notPicking, l, p)
  | some scope =>
    if p.host.any (l.document.contains · n) then (.ok .insideHost, l, p)
    else match l.pick scope n with
      | .ok l => (.ok (.picked scope), l, p.stop)
      | .error e => (.error e, l, p.stop)

end Picking

end ElementLocator.Locator
