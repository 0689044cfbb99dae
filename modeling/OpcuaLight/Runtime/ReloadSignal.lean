import OpcuaLight.Lib.Signal
import OpcuaLight.Runtime.Process

/-!
# Reloads under way

The configuration file is written in place and the runtime is signalled, while the runtime may be anywhere in a
reload: it has seen the flag and not yet cleared it, or it has read the file once and has yet to read it again, or
it is reading just as the file is written (`Signal`).

* `reload_settles` : whatever has come between, once the last write has been signalled and handled, the runtime has
  every node of the configuration in the file; and two more reloads at most get there.
-/

namespace OpcuaLight.Runtime

open Config (AddressSpaceConfig)
open Forest (keys)

section Reload
variable (cJsonParse : List UInt8 → Option Json) (ua : Ua)

/-- `handle_reload` with what it has read of the file so far: it returns if that is not a configuration, and reads
again to clear the address space if it is. -/
def handleReloadReads (S : Server) : List (Option (List UInt8)) → Option Server
  | [] => none
  | [parsed] => if (configParseFile cJsonParse parsed).isSome then none else some S
  | parsed :: cleared :: _ => some (handleReloadFrom cJsonParse ua S parsed cleared)

/-- The loop of the runtime: it handles the reload signal, and else it applies lines. -/
def runtimeLoop : Signal.Reader (Option (List UInt8)) Server (List UInt8) where
  handle := handleReloadReads cJsonParse ua
  work := applyLine cJsonParse ua

/-- The process that has started on the content of the file. -/
def runtimeStart (p : Process) : Signal.State (Option (List UInt8)) Server := .start (some p.configFile) p.server

end Reload

/-! ## What a reload and a line keep -/

section Settles
variable {cJsonParse : List UInt8 → Option Json} {ua : Ua}

theorem applyUpdateItem_nodes (ua : Ua) (S : Server) (v : Json) :
    (applyUpdateItem ua S v).nodes = S.nodes ∧ (applyUpdateItem ua S v).namespaces = S.namespaces := by
  rw [applyUpdateItem]
  split
  · exact ⟨write_nodes .., write_namespaces ..⟩
  · exact ⟨rfl, rfl⟩

theorem applyLine_nodes (cJsonParse : List UInt8 → Option Json) (ua : Ua) (S : Server) (line : List UInt8) :
    (applyLine cJsonParse ua S line).nodes = S.nodes ∧
      (applyLine cJsonParse ua S line).namespaces = S.namespaces := by
  have hall : ∀ (vs : List Json) (S : Server), (vs.foldl (applyUpdateItem ua) S).nodes = S.nodes ∧
      (vs.foldl (applyUpdateItem ua) S).namespaces = S.namespaces := by
    intro vs
    induction vs with
    | nil => exact fun _ => ⟨rfl, rfl⟩
    | cons v vs ih =>
        intro S
        obtain ⟨hnodes, hnamespaces⟩ := applyUpdateItem_nodes ua S v
        obtain ⟨hn, hns⟩ := ih (applyUpdateItem ua S v)
        exact ⟨hn.trans hnodes, hns.trans hnamespaces⟩
  rw [applyLine]
  split
  · exact ⟨rfl, rfl⟩
  · rw [applyMessage]
    split
    · exact ⟨rfl, rfl⟩
    · split_ifs
      · exact ⟨rfl, rfl⟩
      · exact ⟨rfl, rfl⟩
      · exact hall _ S

theorem Server.Sound.applyLine {S : Server} (h : S.Sound) (line : List UInt8) :
    (applyLine cJsonParse ua S line).Sound := by
  obtain ⟨hnodes, hnamespaces⟩ := applyLine_nodes cJsonParse ua S line
  exact ⟨hnodes ▸ h.wf, by rw [hnodes, hnamespaces]; exact h.numbered⟩

/-- Every node that the configuration describes is there. -/
def Standing (ua : Ua) (config : List NamespaceJson) (S : Server) : Prop :=
  ∀ x ∈ configItems (fun uri identifier => (some uri, identifier)) ua config, x.key ∈ keys S.view

theorem standing_build {S : Server} (h : S.Sound) {config : List NamespaceJson}
    (hanchored : ∀ ns ∈ config, Anchored ns) : Standing ua config (addressSpaceBuild ua S config) := by
  intro x hx
  rw [h.view_build ua config]
  exact Forest.key_mem_addAll (closed_configItems _ ua hanchored S.view) hx

/-- What the runtime shows if it has read nothing but the content. -/
def Settled (cJsonParse : List UInt8 → Option Json) (ua : Ua) (first : List UInt8)
    (reads : List (Option (List UInt8))) (S : Server) : Prop :=
  ∀ content root, (∀ x ∈ reads, x = some content) → (reads = [] → first = content) →
    configParseFile cJsonParse (some content) = some root → (∀ ns ∈ readConfig root, Anchored ns) →
      Standing ua (readConfig root) S

theorem settled_handle {S S' : Server} (h : S.Sound) {first : List UInt8} {reads : List (Option (List UInt8))}
    (hhandle : handleReloadReads cJsonParse ua S reads = some S') :
    S'.Sound ∧ Settled cJsonParse ua first reads S' := by
  unfold handleReloadReads at hhandle
  split at hhandle
  · exact absurd hhandle (Option.some_ne_none S').symm
  · rename_i parsed
    split_ifs at hhandle with hparsed
    obtain rfl := Option.some.inj hhandle
    -- the content was not a configuration
    refine ⟨h, fun content root hread _ hroot _ => absurd ?_ hparsed⟩
    rw [hread parsed List.mem_cons_self, hroot]
    rfl
  · rename_i parsed cleared rest
    obtain rfl := Option.some.inj hhandle
    refine ⟨h.handleReloadFrom parsed cleared, fun content root hread _ hroot hanchored => ?_⟩
    obtain rfl := hread parsed List.mem_cons_self
    obtain rfl := hread cleared (List.mem_cons_of_mem _ List.mem_cons_self)
    have hclear : (addressSpaceClearFrom cJsonParse S (some content)).Sound := by
      rw [addressSpaceClearFrom]
      split
      · exact h
      · exact h.clear _
    rw [handleReloadFrom, hroot]
    exact standing_build hclear hanchored

theorem settled_start {applicationUri : String} {content : List UInt8} {p : Process}
    (hstart : Process.start cJsonParse ua applicationUri content = some p) :
    p.configFile = content ∧ p.server.Sound ∧ Settled cJsonParse ua content [] p.server := by
  obtain ⟨root, hroot, rfl⟩ := Option.map_eq_some_iff.mp hstart
  refine ⟨rfl, (sound_new applicationUri).build ua _, fun content' root' _ hfirst hroot' hanchored => ?_⟩
  obtain rfl := hfirst rfl
  obtain rfl := Option.some.inj (hroot.symm.trans hroot')
  exact standing_build (sound_new applicationUri) hanchored

theorem settled_applyLine {S : Server} {line : List UInt8} {first : List UInt8} {reads : List (Option (List UInt8))}
    (h : Settled cJsonParse ua first reads S) : Settled cJsonParse ua first reads (applyLine cJsonParse ua S line) := by
  intro content root hread hnil hroot hanchored x hx
  obtain ⟨hnodes, hnamespaces⟩ := applyLine_nodes cJsonParse ua S line
  rw [Server.view, hnodes, hnamespaces]
  exact h content root hread hnil hroot hanchored x hx

/-- A reload reads the file twice at most. -/
theorem handleReloadReads_bounded (S : Server) (reads : List (Option (List UInt8))) (h : 2 ≤ reads.length) :
    handleReloadReads cJsonParse ua S reads ≠ none := by
  match reads, h with
  | parsed :: cleared :: _, _ => exact Option.some_ne_none _

/-- **No reload is lost.** Let the runtime start on any configuration, and let writes of the file, signals, the
steps of the reloads and lines on stdin come in any order, a read that meets a write giving anything. Once the last
write has been signalled and no reload is left to handle, every node that a fresh server would have of the
configuration in the file is there; and if nothing more is written, two reloads at most get there. -/
theorem reload_settles (hparse : ReadsJson cJsonParse) {applicationUri : String} {content : List UInt8} {p : Process}
    (hstart : Process.start cJsonParse ua applicationUri content = some p)
    (events : List (Signal.Event (Option (List UInt8)) (List UInt8)))
    {ops : List Db.Operation} (hops : ∀ op ∈ ops, op.Values (Config.Fits 995)) {env : Config.Env}
    (hport : env.port ≤ 65535) {security : Option Config.SecurityConfigRow} {config : AddressSpaceConfig}
    (hconfig : Config.addressSpaceConfig env ⟨Db.reach ops, security⟩ = some config) {generatedAt : String} :
    let s := Machine.run (Signal.step (runtimeLoop cJsonParse ua)) (runtimeStart p) events
    (s.value = some (Config.writeToFile generatedAt config) → s.Quiet →
      ∀ x ∈ (serverCreate ua applicationUri (parse config.namespaces)).view, x.key ∈ keys s.reader.view) ∧
    ∀ torn, s.writing = false → s.owed = false →
      let s' := Machine.run (Signal.step (runtimeLoop cJsonParse ua)) s (Signal.turn torn 3 ++ Signal.turn torn 3)
      s'.Quiet ∧ s'.value = s.value := by
  intro s
  refine ⟨fun hvalue hquiet x hx => ?_, fun torn => Signal.quiet_turns handleReloadReads_bounded torn⟩
  obtain ⟨rfl, hsound, hsettled⟩ := settled_start hstart
  obtain ⟨hlast, hfirst⟩ := Signal.settled _ _ events rfl hquiet
  have hholds : s.reader.Sound ∧ Settled cJsonParse ua p.configFile s.last s.reader :=
    Signal.holds_of_run (R := runtimeLoop cJsonParse ua) (fun S reads S' h => settled_handle h)
      (fun S w h => h.applyLine w) (fun S line reads _ h => settled_applyLine h) hsound hsettled events
  have hfits := Config.json_fits (Db.reach_values hops) (by omega) hconfig generatedAt
  obtain ⟨namespaces, hgen, hnamespaces⟩ : ∃ namespaces, Config.generate (Db.reach ops) = some namespaces ∧
      config.namespaces = namespaces := by
    obtain ⟨namespaces, hgen, rfl⟩ := Option.map_eq_some_iff.mp hconfig
    exact ⟨namespaces, hgen, rfl⟩
  have hread := readConfig_json config generatedAt
  have hkeys := hholds.2 (Config.writeToFile generatedAt config) (config.json generatedAt)
    (fun y hy => (hlast y hy).trans hvalue) (fun hnil => Option.some.inj ((hfirst hnil).trans hvalue))
    (configParseFile_written hparse hfits)
    (by rw [hread, hnamespaces]; exact anchored_parse ops hgen)
  rw [hread] at hkeys
  rw [view_serverCreate] at hx
  exact hkeys x ((Forest.mem_of_mem_addAll hx).resolve_left List.not_mem_nil)

end Settles

def emptyConfig : AddressSpaceConfig := ⟨1, 4840, Config.noSecurity, []⟩

theorem emptyConfig_fits (generatedAt : String) : Config.Fits nestingLimit (emptyConfig.json generatedAt) :=
  have hkeys : ["version", "generatedAt", "port", "security", "namespaces"].Nodup := by decide
  have hdepth : (emptyConfig.json "").depth ≤ nestingLimit := by decide
  ⟨⟨hkeys, Config.canonical_natCast (n := 1) (by decide), trivial,
    Config.canonical_natCast (n := 4840) (by decide), ⟨by decide, trivial, trivial⟩, trivial, trivial⟩, hdepth⟩

/-- The runtime reads the file as it is written, and handles the signal for that read before the write has ended. -/
def tornEvents (content : List UInt8) : List (Signal.Event (Option (List UInt8)) (List UInt8)) :=
  [.setFlag, .seeFlag, .clearFlag, .beginRead, .beginWrite, .endRead none, .endWrite (some content), .setFlag]

theorem reload_settles_torn : ∃ config p,
    Config.addressSpaceConfig plantEnv ⟨Db.reach plantOps, none⟩ = some config ∧
    Process.start readJson acceptAll "urn:app" (Config.writeToFile "2024-05-01T08:00:00.000Z" emptyConfig) = some p ∧
    ∃ more, ∀ x ∈ (serverCreate acceptAll "urn:app" (parse config.namespaces)).view,
      x.key ∈ keys (Machine.run (Signal.step (runtimeLoop readJson acceptAll)) (runtimeStart p)
        (tornEvents (Config.writeToFile "2024-05-01T09:00:00.000Z" config) ++ more)).reader.view := by
  have hsome : (Config.addressSpaceConfig plantEnv ⟨Db.reach plantOps, none⟩).isSome = true := by decide
  obtain ⟨config, hconfig⟩ := Option.isSome_iff_exists.mp hsome
  have hroot := configParseFile_written readsJson_readJson (emptyConfig_fits "2024-05-01T08:00:00.000Z")
  obtain ⟨p, hstart⟩ : ∃ p, Process.start readJson acceptAll "urn:app"
      (Config.writeToFile "2024-05-01T08:00:00.000Z" emptyConfig) = some p := by
    rw [Process.start, hroot]
    exact ⟨_, rfl⟩
  have hsettles := fun events => @reload_settles readJson acceptAll readsJson_readJson "urn:app" _ p hstart events
    plantOps plantOps_values plantEnv (by decide) none config hconfig "2024-05-01T09:00:00.000Z"
  obtain ⟨-, hturns⟩ := hsettles (tornEvents (Config.writeToFile "2024-05-01T09:00:00.000Z" config))
  obtain ⟨hquiet, hvalue⟩ := hturns none rfl rfl
  rw [← Machine.run_append] at hquiet hvalue
  exact ⟨config, p, hconfig, hstart, _, (hsettles _).1 (hvalue.trans rfl) hquiet⟩

end OpcuaLight.Runtime
