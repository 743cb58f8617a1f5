import BotFleet.Bootstrap
import BotFleet.Service.Serve
import BotFleet.Store.Location

/-
Starting the service.

A start opens the store, makes sure of the first account, starts the instances
that start together with the service, and checks that answers can name the
origin.  It stops at the first of these that fails, except that instances that
cannot be started keep nothing else from starting.
-/

namespace BotFleet
namespace Service

structure Startup where
  state : Except Failure State
  /-- The link to the daemon, also after a failure. -/
  link : Daemon.Link
  notices : List Notice

namespace Startup

/-- Where the store is to be found.  A file that may only be read is never
created. -/
def locate (c : Config) : Except Failure Store.Location :=
  match Store.Location.ofUrl? c.databaseUrl with
  | none => .error (.store (.broken "invalid database URL"))
  | some location =>
    if location.readOnly && location.file.isSome then
      .error (.store (.broken "unable to open database file"))
    else .ok location

/-- Whether a store at the location can be given its tables. -/
def checkWritable (location : Store.Location) : Except Failure Unit :=
  if location.readOnly || (location.immutable && location.file.isSome) then
    .error (.migration "attempt to write a readonly database")
  else .ok ()

def checkOrigin (origin : String) : Except Failure Unit :=
  if Http.Header.isValue origin then .ok ()
  else .error (.config (.invalidValue "cors_origin" "failed to parse header value"))

/-- The store with the first account in it, and the account's password if it is
new. -/
def prepare (c : Context) (draws : List Nat)
    (opening : Store.Location → Except Store.Fault Store) :
    Except Failure (Option String × Store) := do
  let location ← locate c.config
  let store ← (opening location).mapError Failure.store
  checkWritable location
  Bootstrap.ensureRoot c.scheme c.config.hashCost c.now ⟨draws, c.salt⟩ store

/-- Starts the service, given what stands at a location and what becomes of
requests to the daemon.  Nothing is running and nobody is connected at first. -/
def run (c : Context) (draws : List Nat) (opening : Store.Location → Except Store.Fault Store)
    (link : Daemon.Link) : Startup :=
  let link := { link with base := c.config.daemonBase }
  match prepare c draws opening with
  | .error f => ⟨.error f, link, []⟩
  | .ok (password, store) =>
    let started := Daemon.Control.autostart store.autostartInstances ⟨[], link⟩
    let state : State := ⟨⟨store, started.control⟩, .empty⟩
    let notices := (password.map Bootstrap.announcement).toList ++ started.notices
    ⟨(checkOrigin c.config.corsOrigin).map fun _ => state, started.control.link, notices⟩

end Startup
end Service
end BotFleet
