import Switchboard.Bus.Basic
import Switchboard.Hub.Error
import Switchboard.Store.Record
import Switchboard.Worker.Assignment

/-!
The hub: its database, its bus, and the assignments whose dispatch is not decided yet.

Operations take the world they run in and the hub they start from, and give their answer together
with the hub they leave.
-/

namespace Switchboard

structure Hub where
  /-- Active executions allowed per workspace; zero for any number. -/
  limit : Nat
  db : Database
  bus : Bus
  meter : Meter := {}
  /-- Assignments handed to the dispatcher and not answered yet, oldest first. -/
  outstanding : List Assignment := []
  /-- Decisions forwarded to the worker, oldest first. -/
  forwarded : List Decision := []
deriving Repr, Inhabited

namespace Hub

def create (limit ring queue : Nat) : Hub :=
  { limit := limit, db := {}, bus := .create ring queue }

/-- The hub after it was closed and opened again.  What was in memory is gone; the database is kept
if it is on file. -/
def reopen (onFile : Bool) (h : Hub) : Hub :=
  { limit := h.limit
    db := if onFile then h.db else {}
    bus := .create h.bus.ringCapacity h.bus.queueCapacity
    meter := h.meter
    forwarded := h.forwarded }

/-- Carries out a transaction.  One that fails leaves the database as it was. -/
def transact {ε α : Type} (w : World) (t : Transaction ε α) (h : Hub) : Except ε α × Hub :=
  match t w h.meter h.db with
  | (m, .ok (a, db)) => (.ok a, { h with meter := m, db := db })
  | (m, .error e) => (.error e, { h with meter := m })

def publish (event : Event) (h : Hub) : Hub := { h with bus := h.bus.publish event }

/-- Forwards a decision to the worker.  Whether the worker takes it makes no difference. -/
def forward (d : Decision) (h : Hub) : Hub := { h with forwarded := h.forwarded ++ [d] }

/-- Publishes an event of the hub's own, stamped with the time. -/
def announce (w : World) (event : String → Event) (h : Hub) : Hub :=
  let now := w.now h.meter
  { h with meter := h.meter.afterReading, bus := h.bus.publish (event now) }

def announceError (w : World) (execution : ExecutionId) (trace : Option TraceId)
    (code message : String) (h : Hub) : Hub :=
  h.announce w (Event.error execution trace code message)

def settle (h : Hub) : Hub := { h with bus := h.bus.settle }

end Hub

/-- A transaction on the store as part of an operation of the hub. -/
def Transaction.onStore {α : Type} (t : Transaction StoreError α) : Transaction HubError α :=
  t.mapError HubError.store

end Switchboard
