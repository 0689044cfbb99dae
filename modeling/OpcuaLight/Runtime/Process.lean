import Mathlib.Data.List.Forall2
import OpcuaLight.Runtime.Ipc
import OpcuaLight.Runtime.Messages

/-!
# The runtime process

The runtime with the bytes that reach it: the pipe on stdin, the buffer, and the configuration file. An iteration
handles a requested reload, and then reads once from the pipe.

* `process_refines` : however the bytes come, a run does what the runtime does that is given whole messages and
  parsed configurations (`RuntimeContext`), and no access is outside the buffer.
-/

namespace OpcuaLight.Runtime

open Config (AddressSpaceConfig)
open Lines (lines rest keep readPiece)

/-! ## The process -/

structure Process where
  server : Server
  reloadRequested : Bool
  configFile : List UInt8
  buffer : StdinBuffer
  /-- What was written to stdin and not read. -/
  pipe : List UInt8

inductive ProcessEvent where
  /-- `writeToStdin`. -/
  | send (message : Message)
  | writeToFile (generatedAt : String) (config : AddressSpaceConfig)
  | reloadSignal
  /-- `server_iteration_callback`, with the number of bytes that `read` returns if it may. -/
  | iteration (bytes : Nat)

section Step
variable (cJsonParse : List UInt8 → Option Json) (ua : Ua)

/-- The server after the reload of an iteration, if one is requested. -/
def Process.reloaded (p : Process) : Server :=
  if p.reloadRequested then handleReloadFrom cJsonParse ua p.server (some p.configFile) (some p.configFile)
  else p.server

def Process.step (p : Process) : ProcessEvent → Option Process
  | .send message => some { p with pipe := p.pipe ++ (message.line ++ [newline]) }
  | .writeToFile generatedAt config => some { p with configFile := Config.writeToFile generatedAt config }
  | .reloadSignal => some { p with reloadRequested := true }
  | .iteration bytes =>
      (ipcProcess p.buffer p.pipe bytes).map fun r =>
        { p with
          server := r.1.foldl (applyLine cJsonParse ua) (p.reloaded cJsonParse ua)
          reloadRequested := false
          buffer := r.2.1
          pipe := r.2.2 }

def Process.run (p : Process) (events : List ProcessEvent) : Option Process :=
  events.foldlM (Process.step cJsonParse ua) p

/-- The process that has started on the content of the file. -/
def Process.start (applicationUri : String) (content : List UInt8) : Option Process :=
  (configParseFile cJsonParse (some content)).map fun root =>
    ⟨serverCreate ua applicationUri (readConfig root), false, content, .empty, []⟩

end Step

/-! ## Messages in a stream -/

/-- The bytes of messages. -/
def wire (messages : List Message) : List UInt8 := messages.flatMap (fun m => m.line ++ [newline])

theorem wire_cons (m : Message) (messages : List Message) :
    wire (m :: messages) = m.line ++ newline :: wire messages := by
  rw [wire, List.flatMap_cons, List.append_assoc]
  rfl

/-- The start of the stream has some of the messages as its lines, and the others go on behind it. -/
theorem lines_of_append {messages : List Message} (hm : ∀ m ∈ messages, m.Sendable) {u v : List UInt8}
    (h : u ++ v = wire messages) : ∃ k, lines newline u = (messages.take k).map Message.line ∧
      rest newline u ++ v = wire (messages.drop k) := by
  induction messages generalizing u with
  | nil =>
      obtain ⟨rfl, rfl⟩ := List.append_eq_nil_iff.mp h
      exact ⟨0, rfl, rfl⟩
  | cons m messages ih =>
      obtain ⟨hsend, hrest⟩ := List.forall_mem_cons.mp hm
      have hline := (line_bytes hsend).2.2
      rw [wire_cons] at h
      rcases List.append_eq_append_iff.mp h with ⟨a, ha, hv⟩ | ⟨c, hc, hw⟩
      · -- the line has not ended
        have hu : newline ∉ u := fun hmem => hline (ha ▸ List.mem_append_left _ hmem)
        obtain ⟨hlines, hrestu⟩ := Lines.lines_of_notMem hu
        refine ⟨0, hlines, ?_⟩
        rw [hrestu, h, List.drop_zero, wire_cons]
      · cases c with
        | nil =>
            rw [List.append_nil] at hc
            have hu : newline ∉ u := hc ▸ hline
            obtain ⟨hlines, hrestu⟩ := Lines.lines_of_notMem hu
            refine ⟨0, hlines, ?_⟩
            rw [hrestu, h, List.drop_zero, wire_cons]
        | cons x c =>
            obtain ⟨rfl, htail⟩ := List.cons.inj hw
            obtain ⟨k, hlines, hgoes⟩ := ih hrest htail.symm
            obtain ⟨hfirst, hlast⟩ := Lines.lines_line c hline
            refine ⟨k + 1, ?_, ?_⟩
            · rw [hc, hfirst, hlines, List.take_succ_cons, List.map_cons]
            · rw [hc, hlast, hgoes, List.drop_succ_cons]

/-- What comes before the first newline is a part of a message. -/
theorem length_of_notMem {messages : List Message} (hm : ∀ m ∈ messages, m.Sendable) {u v : List UInt8}
    (h : u ++ v = wire messages) (hu : newline ∉ u) : u.length ≤ 65534 := by
  cases messages with
  | nil =>
      obtain ⟨rfl, -⟩ := List.append_eq_nil_iff.mp h
      exact Nat.zero_le _
  | cons m messages =>
      have hlen := (hm m List.mem_cons_self).length
      rw [wire_cons] at h
      rcases List.append_eq_append_iff.mp h with ⟨a, ha, -⟩ | ⟨c, hc, hw⟩
      · have hline := congrArg List.length ha
        rw [List.length_append] at hline
        omega
      · cases c with
        | nil =>
            rw [hc, List.append_nil]
            exact hlen
        | cons x c =>
            obtain ⟨rfl, -⟩ := List.cons.inj hw
            exact absurd (hc ▸ List.mem_append_right _ List.mem_cons_self) hu

theorem zero_notMem_wire {messages : List Message} (hm : ∀ m ∈ messages, m.Sendable) : 0 ∉ wire messages := by
  intro hmem
  obtain ⟨m, hin, hmem⟩ := List.mem_flatMap.mp hmem
  rcases List.mem_append.mp hmem with hmem | hmem
  · exact (line_bytes (hm m hin)).2.1 hmem
  · exact absurd (List.mem_singleton.mp hmem) (by decide)

/-! ## The refinement -/

section Refinement
variable {cJsonParse : List UInt8 → Option Json} {ua : Ua}

/-- The process is in the state of the runtime context: the messages that it has not read to their ends are those
on stdin there. -/
structure Refines (cJsonParse : List UInt8 → Option Json) (p : Process) (ctx : RuntimeContext) : Prop where
  server : p.server = ctx.server
  reloadRequested : p.reloadRequested = ctx.reloadRequested
  configFile : ∃ root, configParseFile cJsonParse (some p.configFile) = some root ∧ readConfig root = ctx.configFile
  stdin : ∃ held messages, Keeps p.buffer held ∧ (∀ m ∈ messages, Message.Sendable m) ∧
    held ++ p.pipe = wire messages ∧ messages.map Message.entries = ctx.stdin

/-- The message fits the buffer, and cJSON can read the file. -/
def ProcessEvent.Readable : ProcessEvent → Prop
  | .send message => message.Sendable
  | .writeToFile generatedAt config => Config.Fits nestingLimit (config.json generatedAt)
  | _ => True

/-- The event of the runtime context for one of the process. -/
inductive Abstracts : ProcessEvent → RuntimeEvent → Prop where
  | send (message : Message) : Abstracts (.send message) (.line message.entries)
  | writeToFile (generatedAt : String) (config : AddressSpaceConfig) :
      Abstracts (.writeToFile generatedAt config) (.writeConfig (parse config.namespaces))
  | reloadSignal : Abstracts .reloadSignal .reloadSignal
  | iteration (bytes lines : Nat) : Abstracts (.iteration bytes) (.iteration lines)

/-- A reload reads the same file twice. -/
theorem Refines.reloaded {p : Process} {ctx : RuntimeContext} (h : Refines cJsonParse p ctx) :
    p.reloaded cJsonParse ua = Runtime.reloaded ua ctx := by
  obtain ⟨root, hroot, hread⟩ := h.configFile
  rw [Process.reloaded, Runtime.reloaded, h.reloadRequested, h.server, handleReloadFrom_some hroot, hread]

/-- What an iteration reads are lines of messages. -/
theorem Refines.iteration (ua : Ua) (hparse : ReadsJson cJsonParse) {p : Process} {ctx : RuntimeContext}
    (h : Refines cJsonParse p ctx) (bytes : Nat) : ∃ p' k, p.step cJsonParse ua (.iteration bytes) = some p' ∧
      Refines cJsonParse p' (ctx.step ua (.iteration k)) := by
  obtain ⟨held, messages, hkeeps, hsend, hstream, hstdin⟩ := h.stdin
  have hnul : 0 ∉ p.pipe := fun hmem =>
    zero_notMem_wire hsend (hstream ▸ List.mem_append_right _ hmem)
  have hfits := length_of_notMem hsend hstream hkeeps.noNewline
  have hkeep : keep (stdinBufferSize - 1) held = held := if_neg (by
    have hsize : stdinBufferSize = 65536 := rfl
    omega)
  obtain ⟨b, hcall, hkeeps'⟩ := ipcProcess_spec hkeeps hnul (n := bytes) rfl
  set piece := p.pipe.take (min bytes (stdinBufferSize - 1 - (keep (stdinBufferSize - 1) held).length))
    with hpiece
  have hpipe : piece ++ p.pipe.drop piece.length = p.pipe :=
    List.prefix_iff_eq_append.mp (List.take_prefix _ _)
  obtain ⟨k, hlines, hrest⟩ := lines_of_append hsend (u := held ++ piece) (v := p.pipe.drop piece.length)
    (by rw [List.append_assoc, hpipe, hstream])
  have hread : (readPiece newline (stdinBufferSize - 1) held piece) =
      ((messages.take k).map Message.line, rest newline (held ++ piece)) := by
    have hfeed : Lines.feed newline held piece = (lines newline (held ++ piece), rest newline (held ++ piece)) :=
      Lines.feed_held piece hkeeps.noNewline
    have hall : ((messages.take k).map Message.line).filter (· ≠ []) = (messages.take k).map Message.line := by
      refine List.filter_eq_self.mpr fun line hline => ?_
      obtain ⟨m, hm, rfl⟩ := List.mem_map.mp hline
      exact decide_eq_true (line_bytes (hsend m (List.mem_of_mem_take hm))).1
    simp only [readPiece, hkeep, hfeed, hlines, hall]
  rw [hread] at hcall hkeeps'
  -- the server has applied the messages that were read to their ends
  have happlied : ∀ S, ((messages.take k).map Message.line).foldl (applyLine cJsonParse ua) S =
      (ctx.stdin.take k).foldl (applyValueUpdate ua) S := by
    intro S
    rw [← hstdin, ← List.map_take, List.foldl_map, List.foldl_map]
    exact List.foldl_ext _ _ S fun S m hm => applyLine_message hparse ua S (hsend m (List.mem_of_mem_take hm))
  refine ⟨_, k, by rw [Process.step, hcall]; rfl, ?_⟩
  exact
    { server := by
        show ((messages.take k).map Message.line).foldl (applyLine cJsonParse ua) (p.reloaded cJsonParse ua) = _
        rw [happlied, h.reloaded]
        rfl
      reloadRequested := rfl
      configFile := h.configFile
      stdin := ⟨_, messages.drop k, hkeeps', fun m hm => hsend m (List.mem_of_mem_drop hm), hrest, by
        show (messages.drop k).map Message.entries = ctx.stdin.drop k
        rw [List.map_drop, hstdin]⟩ }

theorem Refines.step (ua : Ua) (hparse : ReadsJson cJsonParse) {p : Process} {ctx : RuntimeContext}
    (h : Refines cJsonParse p ctx) {e : ProcessEvent} (he : e.Readable) : ∃ p' e', p.step cJsonParse ua e = some p' ∧
      Abstracts e e' ∧ Refines cJsonParse p' (ctx.step ua e') := by
  cases e with
  | send message =>
      obtain ⟨held, messages, hkeeps, hsend, hstream, hstdin⟩ := h.stdin
      refine ⟨_, .line message.entries, rfl, .send message, { h with stdin := ?_ }⟩
      refine ⟨held, messages ++ [message], hkeeps, List.forall_mem_append.mpr
        ⟨hsend, List.forall_mem_singleton.mpr he⟩, ?_, ?_⟩
      · show held ++ (p.pipe ++ (message.line ++ [newline])) = wire (messages ++ [message])
        rw [← List.append_assoc, hstream, wire, wire, List.flatMap_append, List.flatMap_singleton]
      · show (messages ++ [message]).map Message.entries = ctx.stdin ++ [message.entries]
        rw [List.map_append, hstdin, List.map_singleton]
  | writeToFile generatedAt config =>
      exact ⟨_, .writeConfig (parse config.namespaces), rfl, .writeToFile generatedAt config,
        { h with configFile := ⟨_, configParseFile_written hparse he, readConfig_json config generatedAt⟩ }⟩
  | reloadSignal => exact ⟨_, .reloadSignal, rfl, .reloadSignal, { h with reloadRequested := rfl }⟩
  | iteration bytes =>
      obtain ⟨p', k, hstep, hrefines⟩ := h.iteration ua hparse bytes
      exact ⟨p', .iteration k, hstep, .iteration bytes k, hrefines⟩

/-- The process has started in the state of the runtime context. -/
theorem refines_start {applicationUri : String} {content : List UInt8} {p : Process}
    (hstart : Process.start cJsonParse ua applicationUri content = some p) {config : List NamespaceJson}
    (hconfig : ∃ root, configParseFile cJsonParse (some content) = some root ∧ readConfig root = config) :
    Refines cJsonParse p (.start ua applicationUri config) := by
  obtain ⟨root, hroot, rfl⟩ := hconfig
  rw [Process.start, hroot] at hstart
  rw [← Option.some.inj hstart]
  exact ⟨rfl, rfl, ⟨root, hroot, rfl⟩, [], [], keeps_empty, nofun, rfl, rfl⟩

theorem Refines.run (hparse : ReadsJson cJsonParse) {events : List ProcessEvent} :
    ∀ {p : Process} {ctx : RuntimeContext}, Refines cJsonParse p ctx → (∀ e ∈ events, e.Readable) →
      ∃ p' events', p.run cJsonParse ua events = some p' ∧ List.Forall₂ Abstracts events events' ∧
        Refines cJsonParse p' (Machine.run (RuntimeContext.step ua) ctx events') := by
  induction events with
  | nil => exact fun h _ => ⟨_, [], rfl, .nil, h⟩
  | cons e events ih =>
      intro p ctx h hevents
      obtain ⟨he, hrest⟩ := List.forall_mem_cons.mp hevents
      obtain ⟨p₁, e', hstep, habstract, h₁⟩ := h.step ua hparse he
      obtain ⟨p', events', hrun, hall, h'⟩ := ih h₁ hrest
      refine ⟨p', e' :: events', ?_, .cons habstract hall, h'⟩
      rw [Process.run, List.foldlM_cons, hstep]
      exact hrun

/-- Nothing is left on stdin once the bytes have been read. -/
theorem Refines.drained {p : Process} {ctx : RuntimeContext} (h : Refines cJsonParse p ctx) (hpipe : p.pipe = [])
    (hheld : p.buffer.held = []) : ctx.stdin = [] := by
  obtain ⟨held, messages, hkeeps, -, hstream, hstdin⟩ := h.stdin
  rw [hkeeps.held_eq] at hheld
  rw [hheld, hpipe, List.append_nil] at hstream
  cases messages with
  | nil => exact hstdin.symm
  | cons m messages =>
      rw [wire_cons] at hstream
      exact absurd hstream.symm (List.append_ne_nil_of_right_ne_nil _ (List.cons_ne_nil _ _))

/-- **The process does what the runtime context does.** From its start on a generated configuration, in every
interleaving of messages, configurations and reload signals with iterations that read any numbers of bytes: no
access is outside the buffer, and the server is that of a runtime that is given each message whole and each
configuration parsed, an iteration handling those messages that have been read to their ends; once all bytes are
read none is left. -/
theorem process_refines (hparse : ReadsJson cJsonParse) (applicationUri generatedAt : String)
    {config : AddressSpaceConfig} (hconfig : Config.Fits nestingLimit (config.json generatedAt))
    {events : List ProcessEvent} (hevents : ∀ e ∈ events, e.Readable) :
    ∃ p₀ p, Process.start cJsonParse ua applicationUri (Config.writeToFile generatedAt config) = some p₀ ∧
      p₀.run cJsonParse ua events = some p ∧ ∃ events', List.Forall₂ Abstracts events events' ∧
        let ctx := Machine.run (RuntimeContext.step ua) (.start ua applicationUri (parse config.namespaces)) events'
        p.server = ctx.server ∧ (p.pipe = [] → p.buffer.held = [] → ctx.stdin = []) := by
  have hroot := configParseFile_written hparse hconfig
  obtain ⟨p₀, hstart⟩ : ∃ p₀, Process.start cJsonParse ua applicationUri
      (Config.writeToFile generatedAt config) = some p₀ := by
    rw [Process.start, hroot]
    exact ⟨_, rfl⟩
  have hrefines := refines_start hstart ⟨_, hroot, readConfig_json config generatedAt⟩
  obtain ⟨p, events', hrun, hall, h⟩ := hrefines.run hparse hevents
  exact ⟨p₀, p, hstart, hrun, events', hall, h.server, h.drained⟩

end Refinement

/-- A value of the variable, a configuration without its folder and the reload, in pieces of a few bytes. -/
def pieceEvents : List ProcessEvent :=
  [.send (.valueUpdate [⟨some "ns=2;s=Plant.Hall.level", ⟨"v", some (.num 2), .good, 1714550400000⟩⟩]),
   .iteration 7, .send .trustStoreReload, .writeToFile "2024-05-01T09:00:00.000Z" (generated emptiedOps),
   .reloadSignal, .iteration 9, .iteration 500]

/-- The process starts with a namespace, a folder and the variable in it. -/
theorem process_refines_pieces :
    Config.Fits nestingLimit ((generated hallOps).json "2024-05-01T08:00:00.000Z") ∧
    (∀ e ∈ pieceEvents, e.Readable) ∧
    ∃ p₀ p, Process.start readJson acceptAll "urn:app" (generatedFile hallOps) = some p₀ ∧
      p₀.server.nodes.length = 3 ∧ p₀.run readJson acceptAll pieceEvents = some p := by
  have hconfig : Config.Fits nestingLimit ((generated hallOps).json "2024-05-01T08:00:00.000Z") :=
    (generated_fits hallOps_values rfl).2
  have hevents : ∀ e ∈ pieceEvents, e.Readable := by
    simp only [pieceEvents, List.forall_mem_cons, List.not_mem_nil, false_implies, implies_true, and_true]
    refine ⟨⟨?_, by decide +kernel⟩, trivial, ⟨by simp [Message.entries], by decide +kernel⟩, ?_, trivial, trivial,
      trivial⟩
    · simp only [Message.entries, List.forall_mem_singleton]
      intro v hv
      rw [← Option.some.inj hv]
      exact ⟨Config.canonical_natCast (n := 2) (by decide), Nat.zero_le _⟩
    · exact (generated_fits emptiedOps_values rfl).2
  obtain ⟨p₀, p, hstart, hrun, -⟩ :=
    process_refines readsJson_readJson "urn:app" "2024-05-01T08:00:00.000Z" hconfig hevents
  refine ⟨hconfig, hevents, p₀, p, hstart, ?_, hrun⟩
  have hserver : p₀.server = serverCreate acceptAll "urn:app" (parse (generated hallOps).namespaces) := by
    have hroot := configParseFile_generated hallOps_values rfl
    rw [generatedFile] at hroot
    rw [Process.start, hroot, Option.map_some] at hstart
    rw [← Option.some.inj hstart, readConfig_json]
  rw [hserver]
  decide

end OpcuaLight.Runtime
