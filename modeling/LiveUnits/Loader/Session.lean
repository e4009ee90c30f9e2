import LiveUnits.Container.Medium
import LiveUnits.Loader.Basic

/-!
# Loaders in use

A session keeps what a loader is made of and what it remembers from one request to the next.  The
files may change between two requests, so every request is made over the file system of its moment.
A container that breaks down brings the session down with it: from then on every request is refused
and nothing that was registered is shown any more.
-/

namespace LiveUnits

/-- A loader in use. -/
structure Session where
  /-- The number that tells its units from those of other sessions. -/
  number : Nat
  /-- What its containers are made of. -/
  media : List Medium
  /-- The host units behind the containers. -/
  host : HostUnits
  /-- The extension of artifacts inside containers. -/
  artifactExtension : String := "wasm"
  /-- What the loader remembers. -/
  registry : Registry := {}
  /-- Whether a container brought it down. -/
  broken : Bool := false

/-- Opens media at paths.  Those that cannot be opened are left out, and the errors are returned. -/
def Medium.openAll (fs : FileSystem) (paths : List Path) : List Medium × List ContainerError :=
  let opened := paths.map (Medium.openAt fs)
  (opened.filterMap Except.toOption, opened.filterMap fun
    | .ok _ => none
    | .error e => some e)

namespace Session

/-- The loader that a session is over a file system. -/
def loader (s : Session) (fs : FileSystem) : Loader :=
  ⟨s.number, s.media.map (Medium.container fs), s.host, s.artifactExtension⟩

/-- Resolves a name. -/
def resolve (s : Session) (fs : FileSystem) (n : Identity) :
    Except ResolveError LinkedUnit × Session :=
  if s.broken then (.error .lockRejected, s)
  else
    match (s.loader fs).resolve n s.registry with
    | (.ok u, r) => (.ok u, { s with registry := r })
    | (.error e, r) =>
      match e.crash? with
      | some root => (.error e, { s with
          registry := r, broken := true, media := Medium.takeDown root s.media })
      | none => (.error e, { s with registry := r })

/-- What can be seen of the registry. -/
def visible (s : Session) : Registry := if s.broken then {} else s.registry

/-- The registered unit of a name. -/
def unit? (s : Session) (name : String) : Option LinkedUnit := s.visible.unit? name

/-- The registered units in the order of their names. -/
def sortedUnits (s : Session) : List LinkedUnit := s.visible.sortedUnits

def classification? (s : Session) (name : String) : Option Classification :=
  s.visible.classification? name

/-- How often the loader did what. -/
def counters (s : Session) : Counters := s.visible.counters

/-- The identities whose artifacts the containers list, and the errors of those that cannot be
listed. -/
def available (s : Session) (fs : FileSystem) : List Identity × List ContainerError :=
  (s.loader fs).available

/-- The roots of the containers. -/
def roots (s : Session) : List Path := s.media.map Medium.root

/-- The session as a description shows it. -/
def describe (s : Session) : String :=
  Description.record "ModuleLoader" [
    ("containers", Description.list (s.media.map Medium.describe)),
    ("host", s.host.describe),
    ("artifact_extension", Quoted.text s.artifactExtension)] true

end Session

end LiveUnits
