import OpcuaLight.Api.Acceptance
import OpcuaLight.Connector.IpcBridge

/-!
# Value updates while the address space changes

Requests to the API and batches of value updates come in any order. Nothing tells the bridge of a request,
so its map stays until a UUID is missed or the server restarts. `messages_resolved`: every message of a
run has the ids that the generator assigns in the database of that time if and only if the map is up to
date for every batch.
-/

namespace OpcuaLight.Api

open Connector (NodeIdMap Entry ValueUpdate handleValueUpdates Resolved settled resolved_iff)
open Db

variable {t : Tables}

/-- The database, and the map that the bridge holds. -/
structure Bridge where
  tables : Tables
  cache : Option NodeIdMap

inductive BridgeEvent where
  | mutation (m : Mutation)
  | valueUpdates (running : Bool) (updates : List ValueUpdate)

namespace Bridge

def start : Bridge := ⟨Tables.empty false, none⟩

/-- The bridge is a new one after a restart. -/
def step (b : Bridge) : BridgeEvent → Bridge
  | .mutation .restart => ⟨mutate b.tables .restart, none⟩
  | .mutation m => ⟨mutate b.tables m, b.cache⟩
  | .valueUpdates running updates =>
      ⟨b.tables, (handleValueUpdates b.tables running b.cache updates).1⟩

/-- The message that is written to stdin. -/
def message (b : Bridge) : BridgeEvent → Option (List Entry)
  | .mutation _ => none
  | .valueUpdates running updates => (handleValueUpdates b.tables running b.cache updates).2

/-- The condition on a step. -/
def settles (b : Bridge) : BridgeEvent → Bool
  | .mutation _ => true
  | .valueUpdates running updates => settled b.tables running b.cache updates

end Bridge

theorem valid_mutate (hv : t.Valid) (m : Mutation) : (mutate t m).Valid := by
  cases m with
  | addressSpace r => exact valid_handle hv r
  | connectors r => exact valid_handleConnector hv r
  | restart => exact valid_reopen hv

theorem valid_step {b : Bridge} (hv : b.tables.Valid) (e : BridgeEvent) : (b.step e).tables.Valid := by
  cases e with
  | mutation m =>
      have hm := valid_mutate hv m
      cases m <;> exact hm
  | valueUpdates running updates => exact hv

theorem message_resolved_iff {b : Bridge} (hv : b.tables.Valid) (e : BridgeEvent) :
    Resolved b.tables (b.message e) ↔ b.settles e = true := by
  cases e with
  | mutation m => exact ⟨fun _ => rfl, fun _ => nofun⟩
  | valueUpdates running updates => exact resolved_iff hv running b.cache updates

/-- In a run of requests, batches and restarts, every message names the nodes of its updates as the
generator does at that time if and only if the map of the bridge is up to date for every batch. -/
theorem messages_resolved (es : List BridgeEvent) :
    Machine.Guarded Bridge.step (fun b e => Resolved b.tables (b.message e)) Bridge.start es ↔
      Machine.Guarded Bridge.step (fun b e => b.settles e = true) Bridge.start es := by
  have hstart : Bridge.start.tables.Valid := valid_empty false
  constructor
  · exact Machine.Guarded.of_invariant (fun b e _ hv => valid_step hv e)
      (fun b e hv h => (message_resolved_iff hv e).mp h) hstart
  · exact Machine.Guarded.of_invariant (fun b e _ hv => valid_step hv e)
      (fun b e hv h => (message_resolved_iff hv e).mpr h) hstart

/-- A variable node, with the update that the connectors send for it. -/
def levelUpdate : ValueUpdate := ⟨"v", some (.num 5), .good, 0⟩

/-- The node gets another name between two updates. -/
def renamedNode : List BridgeEvent :=
  [.mutation (.addressSpace (.postNamespace "n1" ⟨some "Plant", none, some "urn:plant"⟩)),
   .mutation (.addressSpace (.postNode "v" ⟨some "level", some "n1", none, some "Double", none, none⟩)),
   .valueUpdates true [levelUpdate],
   .mutation (.addressSpace (.putNode "v" ⟨some "height", none, none, none, none⟩)),
   .valueUpdates true [levelUpdate]]

example : (Machine.run Bridge.step Bridge.start renamedNode).tables.nodes.map (fun n => n.name) =
    ["height"] := by decide

theorem renamedNode_not_resolved :
    ¬ Machine.Guarded Bridge.step (fun b e => Resolved b.tables (b.message e)) Bridge.start
      renamedNode := by
  rintro ⟨-, -, -, -, h, -⟩
  obtain ⟨-, id, hid, hassigned⟩ := h [⟨some "ns=2;s=Plant.level", levelUpdate⟩] (by decide) _
    List.mem_cons_self
  revert hassigned
  rw [← Option.some.inj hid]
  decide

end OpcuaLight.Api
