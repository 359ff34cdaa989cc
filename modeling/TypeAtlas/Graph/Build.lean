import TypeAtlas.Graph.Basic
import TypeAtlas.Json.Reader
import TypeAtlas.Record.Codec

/-!
# Building a type graph

A graph is built from a list of records, from a map of records under their names, or
from a JSON document that holds either. The order in which the records arrive does not
matter: they are arranged by name first, and of several faults the one with the least
name is reported. What passes the checks is strictly ascending, so it can be assembled:
the records become the nodes of a population, and then its edges are wired.
-/

namespace TypeAtlas

/-- **Why a graph cannot be built.** -/
inductive BuildError where
  /-- The text is not a JSON document. -/
  | notJson
  /-- The settings name no root type. -/
  | noRootType
  /-- The document does not decode to records. -/
  | undecodable (reason : DecodeError)
  /-- Two records have the same name. -/
  | duplicate (name : String)
  /-- A record is under a key that is not its name. -/
  | misfiled (key name : String)
  /-- A record has the empty name. -/
  | unnamed

/-- The wording of a build error. A text that is not JSON has none of its own. -/
def BuildError.message : BuildError → String
  | notJson => "Record decode error"
  | noRootType => "Invalid configuration: " ++ ScanSettings.invalidMessage
  | undecodable reason => "Record decode error: " ++ reason.message
  | duplicate name => "Invalid record: duplicate record '" ++ name ++ "'"
  | misfiled key name =>
    "Invalid record: key '" ++ key ++ "' does not match record name '" ++ name ++ "'"
  | unnamed => "Invalid record: record with empty name"

namespace TypeGraph

/-- **The graph of records in strictly ascending order**, if all of them have a name. -/
def assemble (settings : ScanSettings) (records : List TypeRecord)
    (h : records.Pairwise fun a b => a.name < b.name) : Except BuildError TypeGraph :=
  match hfill : Population.fill records {} with
  | none => .error .unnamed
  | some p =>
    have hnodes : p.nodes.toList = records := by
      simpa using Population.toList_nodes_of_fill hfill
    .ok {
      toPopulation := p
      settings
      edges := p.wire
      ascending := hnodes ▸ h
      filled := by rw [hnodes, hfill]
      wired := rfl }

/-- **The graph of a list of records.** The settings are checked first, then that no
name occurs twice, then that none is empty. -/
def ofRecords (settings : ScanSettings) (records : List TypeRecord) :
    Except BuildError TypeGraph :=
  if !settings.isValid then .error .noRootType
  else
    match h : TypeRecord.duplicate? (TypeRecord.arrange records) with
    | some name => .error (.duplicate name)
    | none =>
      assemble settings (TypeRecord.arrange records)
        (TypeRecord.pairwise_lt_of_duplicate?_eq_none (TypeRecord.pairwise_arrange records) h)

/-- The first entry whose key is not the name of the record. -/
def misfiled? (entries : List (String × TypeRecord)) : Option (String × TypeRecord) :=
  entries.find? fun entry => entry.1 ≠ entry.2.name

/-- Records under ascending keys that are their names are in ascending order. -/
theorem pairwise_of_misfiled?_eq_none {entries : List (String × TypeRecord)}
    (hkeys : entries.Pairwise fun a b => a.1 < b.1) (hnone : misfiled? entries = none) :
    (entries.map (·.2)).Pairwise fun a b => a.name < b.name := by
  have hname : ∀ entry ∈ entries, entry.1 = entry.2.name := by
    simpa [misfiled?] using hnone
  rw [List.pairwise_map]
  exact hkeys.imp_of_mem fun ha hb hlt => by rwa [← hname _ ha, ← hname _ hb]

/-- **The graph of a map of records.** The settings are checked first, then, in the order
of the keys, that every record is under its own name, then that no name is empty. -/
def ofEntries (settings : ScanSettings) (entries : List (String × TypeRecord)) :
    Except BuildError TypeGraph :=
  if !settings.isValid then .error .noRootType
  else
    match h : misfiled? (Entries.ofList entries) with
    | some (key, r) => .error (.misfiled key r.name)
    | none =>
      assemble settings ((Entries.ofList entries).map (·.2))
        (pairwise_of_misfiled?_eq_none (Entries.pairwise_ofList entries) h)

/-- **The graph of a JSON document** that holds a list or a map of records. The text is
read first, then the settings are checked, then the records decoded. -/
def ofJson (settings : ScanSettings) (text : String) : Except BuildError TypeGraph :=
  match Json.read? text with
  | none => .error .notJson
  | some document =>
    if !settings.isValid then .error .noRootType
    else
      match document with
      | .list items =>
        match (Data.list items).asListOf TypeRecord.layout.decode with
        | .error reason => .error (.undecodable reason)
        | .ok records => ofRecords settings records
      | other =>
        match other.asMapOf TypeRecord.layout.decode with
        | .error reason => .error (.undecodable reason)
        | .ok entries => ofEntries settings entries

end TypeGraph

end TypeAtlas
