import StatusList.Lookup.Settings
import StatusList.Lookup.Source

/-!
# Clients

A *client* looks up status lists, entries of them and the lists of pools, as its
settings say. An identifier that is missing or blank is not looked up at all.
-/

namespace StatusList

/-- Someone who looks up what is published. -/
structure Client where
  /-- Where status lists are published. -/
  lists : ListSource
  /-- Where the lists of pools are told. -/
  pools : PoolSource
  /-- The pool that is meant when none is named. -/
  pool : Option String
  /-- Whether presentations are annotated. -/
  annotates : Bool

namespace Client

/-- The client of settings. -/
def ofSettings (s : Settings) (verifier : Option Verifier) : Client where
  lists := ⟨s.listBase, verifier⟩
  pools := ⟨s.poolBase⟩
  pool := s.pool
  annotates := s.annotates

/-- An identifier without the blanks around it, unless it has nothing else. -/
def identifier? (text : Option String) : Option String :=
  (text.map Text.trim).filter fun text => !text.isEmpty

/-- The status list of an identifier or a URL. -/
def list (c : Client) (id : Option String) : Fetching (Outcome Document) :=
  match identifier? id with
  | none => return .invalid
  | some id => c.lists.fetch id

/-- The lists of a pool. -/
def aggregation (c : Client) (id : Option String) : Fetching (Outcome Aggregation) :=
  match (identifier? id).or (identifier? c.pool) with
  | none => return .invalid
  | some id => c.pools.fetch id

/-- The entry that a reference points at. -/
def status? (c : Client) (r : Reference) : Fetching (Option UInt8) := do
  return (← c.lists.fetch r.uri).value?.bind fun document => document.status? r.index

end Client

end StatusList
