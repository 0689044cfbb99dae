import OpcuaLight.Lib.Machine
import OpcuaLight.Runtime.Ipc

/-!
# What a variable node shows

Updates and reloads reach the runtime in any order. A node shows what the updates since it was last built
have made of its initial value (`shows_since`); what was written before a reload that builds it again is
gone. `Since` observes this for one node: the configuration it was last built from, and the updates that
were read since.
-/

namespace OpcuaLight.Runtime

open Connector (Entry)
open Db (OpcUaDataType)
open Forest (keys)

/-! ## Initial values -/

/-- The configuration has a variable node with this id, data type and initial value. -/
def Configures (table : List String) (config : List NamespaceJson) (id : NodeId)
    (dataType : OpcUaDataType) (value : Variant) : Prop :=
  ∃ ns ∈ config, ∃ node ∈ ns.nodes, ∃ uri name typeStr, ns.uri = some uri ∧ node.name = some name ∧
    node.dataType = some typeStr ∧ viewKey table id = (some uri, variableIdentifier node.nodeId name) ∧
    dataType = getDataTypeId typeStr ∧ value = createInitialValue typeStr node.initialValue

/-- Nodes are only added, and new variable nodes show an initial value that `Q` allows. -/
structure Fills (Q : NodeId → OpcUaDataType → Variant → Prop) (S S' : Server) : Prop where
  kept : S.nodes ⊆ S'.nodes
  same : ∀ k ∈ keys S.nodes, S'.values k = S.values k
  new : ∀ x ∈ S'.nodes, x ∉ S.nodes → ∀ dataType, x.data = .variable dataType →
    ∃ v, Q x.key dataType v ∧ S'.values x.key = ⟨v, .good⟩

namespace Fills

variable {Q : NodeId → OpcUaDataType → Variant → Prop} {S S' S'' : Server}

theorem refl (S : Server) : Fills Q S S :=
  ⟨List.Subset.refl _, fun _ _ => rfl, fun _ hx hn => absurd hx hn⟩

theorem of_eq (hn : S'.nodes = S.nodes) (hv : S'.values = S.values) : Fills Q S S' :=
  ⟨by rw [hn]; exact List.Subset.refl _, fun _ _ => by rw [hv], fun x hx hx' => absurd (hn ▸ hx) hx'⟩

theorem trans (h : Fills Q S S') (h' : Fills Q S' S'') : Fills Q S S'' where
  kept := List.Subset.trans h.kept h'.kept
  same k hk := (h'.same k (Forest.keys_subset h.kept hk)).trans (h.same k hk)
  new x hx hold dataType hd := by
    by_cases hmid : x ∈ S'.nodes
    · obtain ⟨v, hq, hv⟩ := h.new x hmid hold dataType hd
      exact ⟨v, hq, (h'.same x.key (Forest.key_mem_keys hmid)).trans hv⟩
    · exact h'.new x hx hmid dataType hd

theorem foldl {α : Type} {f : Server → α → Server} {l : List α}
    (hf : ∀ S, ∀ a ∈ l, Fills Q S (f S a)) (S : Server) : Fills Q S (l.foldl f S) := by
  induction l generalizing S with
  | nil => exact refl S
  | cons a l ih =>
      exact (hf S a List.mem_cons_self).trans
        (ih (fun S b hb => hf S b (List.mem_cons_of_mem a hb)) (f S a))

theorem addObjectNode (S : Server) (id : NodeId) (parent : Option NodeId) :
    Fills Q S (S.addObjectNode id parent) where
  kept := Forest.subset_add _ _
  same _ _ := rfl
  new x hx hold dataType hd := by
    rcases Forest.add_cases S.nodes ⟨id, parent, .object⟩ with he | ⟨he, -⟩
    · exact absurd (he ▸ hx : x ∈ S.nodes) hold
    · have hx' : x ∈ S.nodes ++ [⟨id, parent, .object⟩] := he ▸ hx
      rcases List.mem_append.mp hx' with hx' | hx'
      · exact absurd hx' hold
      · rw [List.mem_singleton.mp hx'] at hd
        cases hd

theorem addVariableNode (ua : Ua) (S : Server) {id : NodeId} (parent : Option NodeId)
    {dataType : OpcUaDataType} {value : Variant} (hq : Q id dataType value) :
    Fills Q S (S.addVariableNode ua id parent dataType value) := by
  unfold Server.addVariableNode
  split_ifs with haccepts
  · refine ⟨Forest.subset_add _ _, fun k hk => ?_, fun x hx hold d hd => ?_⟩
    · show (if _ then Function.update S.values id _ else S.values) k = _
      split_ifs with hnew
      · refine Function.update_of_ne (fun he => ?_) _ _
        rw [he] at hk
        exact hnew.1 hk
      · rfl
    · have hx' : x ∈ Forest.add S.nodes ⟨id, parent, .variable dataType⟩ := hx
      rcases Forest.add_cases S.nodes ⟨id, parent, .variable dataType⟩ with he | ⟨he, hk, -⟩
      · exact absurd (he ▸ hx') hold
      · rw [he] at hx'
        obtain rfl : x = ⟨id, parent, .variable dataType⟩ :=
          List.mem_singleton.mp ((List.mem_append.mp hx').resolve_left hold)
        obtain rfl : dataType = d := NodeClass.variable.inj hd
        refine ⟨value, hq, ?_⟩
        have hin : id ∈ keys (Forest.add S.nodes ⟨id, parent, .variable dataType⟩) := by
          rw [he, Forest.keys_append]
          exact List.mem_append_right _ List.mem_cons_self
        show (if _ then Function.update S.values id _ else S.values) id = _
        rw [if_pos ⟨hk, hin⟩]
        exact Function.update_self _ _ _
  · exact refl S

mutual
theorem createObjectNode (nsIndex : Nat) (parent : Option NodeId) (S : Server) :
    (o : ObjectJson) → Fills Q S (createObjectNode nsIndex parent S o)
  | .mk none _ _ => by
      rw [Runtime.createObjectNode]
      exact refl S
  | .mk (some name) path children => by
      rw [Runtime.createObjectNode]
      exact (addObjectNode S ⟨nsIndex, path.getD name⟩ parent).trans
        (createObjectNodesRecursive nsIndex _ _ children)

theorem createObjectNodesRecursive (nsIndex : Nat) (parent : Option NodeId) (S : Server) :
    (os : List ObjectJson) → Fills Q S (createObjectNodesRecursive nsIndex parent S os)
  | [] => by
      rw [Runtime.createObjectNodesRecursive]
      exact refl S
  | o :: os => by
      rw [Runtime.createObjectNodesRecursive]
      exact (createObjectNode nsIndex parent S o).trans (createObjectNodesRecursive nsIndex parent _ os)
end

theorem createVariableNode (ua : Ua) (nsIndex : Nat) (S : Server) {node : VariableJson}
    (hq : ∀ name typeStr, node.name = some name → node.dataType = some typeStr →
      Q (variableNodeId nsIndex node.nodeId name) (getDataTypeId typeStr)
        (createInitialValue typeStr node.initialValue)) :
    Fills Q S (createVariableNode ua nsIndex S node) := by
  unfold Runtime.createVariableNode
  split
  · rename_i name typeStr hname htype
    exact addVariableNode ua S _ (hq name typeStr hname htype)
  · exact refl S

theorem buildNamespace (ua : Ua) (S : Server) {ns : NamespaceJson} {uri : String}
    (hu : ns.uri = some uri) (hq : ∀ node ∈ ns.nodes, ∀ name typeStr, node.name = some name →
      node.dataType = some typeStr → Q (variableNodeId (S.addNamespace uri).2 node.nodeId name)
        (getDataTypeId typeStr) (createInitialValue typeStr node.initialValue)) :
    Fills Q S (buildNamespace ua S ns) := by
  rw [buildNamespace_eq ua S hu]
  have hroot : Fills Q S (createNamespaceRoot (S.addNamespace uri).2 (S.addNamespace uri).1 ns.name) := by
    have hname : Fills Q S (S.addNamespace uri).1 :=
      of_eq (Server.addNamespace_nodes S uri) (Server.addNamespace_values S uri)
    cases ns.name with
    | none => exact hname
    | some name => exact hname.trans (addObjectNode _ ⟨_, name⟩ none)
  refine (hroot.trans (createObjectNodesRecursive _ _ _ _)).trans (foldl (fun S' node hnode => ?_) _)
  exact createVariableNode ua _ S' (hq node hnode)

theorem build (ua : Ua) (S : Server) {config : List NamespaceJson}
    (hq : ∀ ns ∈ config, ∀ uri, ns.uri = some uri → ∀ node ∈ ns.nodes, ∀ name typeStr,
      node.name = some name → node.dataType = some typeStr →
        Q (variableNodeId ((addressSpaceBuild ua S config).namespaces.idxOf uri) node.nodeId name)
          (getDataTypeId typeStr) (createInitialValue typeStr node.initialValue)) :
    Fills Q S (addressSpaceBuild ua S config) := by
  induction config generalizing S with
  | nil => exact refl S
  | cons ns config ih =>
      have hrest : Fills Q (Runtime.buildNamespace ua S ns) (addressSpaceBuild ua S (ns :: config)) :=
        ih _ fun ns' hns => hq ns' (List.mem_cons_of_mem ns hns)
      refine Fills.trans ?_ hrest
      cases hu : ns.uri with
      | none =>
          unfold Runtime.buildNamespace
          rw [hu]
          exact refl S
      | some uri =>
          refine buildNamespace ua S hu ?_
          have hindex := addNamespace_build_index ua S [] config hu
          rw [List.nil_append, ← build_namespaces ua] at hindex
          rw [show (S.addNamespace uri).2 = _ from hindex]
          exact hq ns List.mem_cons_self uri hu

end Fills

/-- A build gives the nodes that it adds the initial values of the configuration. -/
theorem fills_build (ua : Ua) (S : Server) (config : List NamespaceJson) :
    Fills (Configures (addressSpaceBuild ua S config).namespaces config) S
      (addressSpaceBuild ua S config) := by
  refine Fills.build ua S fun ns hns uri hu node hnode name typeStr hname htype => ?_
  refine ⟨ns, hns, node, hnode, uri, name, typeStr, hu, hname, htype, ?_, rfl, rfl⟩
  have hin : uri ∈ (addressSpaceBuild ua S config).namespaces := by
    rw [build_namespaces]
    exact Intern.mem_internAll.mpr (Or.inr (List.mem_filterMap.mpr ⟨ns, hns, hu⟩))
  exact Prod.ext (getElem?_idxOf hin) rfl

/-! ## Clearing leaves the values -/

mutual
theorem deleteObjectNode_values (nsIndex : Nat) (S : Server) :
    (o : ObjectJson) → (deleteObjectNode nsIndex S o).values = S.values
  | .mk _ none children => by
      rw [deleteObjectNode]
      exact deleteObjectNodesRecursive_values nsIndex S children
  | .mk _ (some path) children => by
      rw [deleteObjectNode]
      exact deleteObjectNodesRecursive_values nsIndex S children

theorem deleteObjectNodesRecursive_values (nsIndex : Nat) (S : Server) :
    (os : List ObjectJson) → (deleteObjectNodesRecursive nsIndex S os).values = S.values
  | [] => by rw [deleteObjectNodesRecursive]
  | o :: os => by
      rw [deleteObjectNodesRecursive, deleteObjectNodesRecursive_values nsIndex _ os]
      exact deleteObjectNode_values nsIndex S o
end

theorem foldl_values {α : Type} {f : Server → α → Server} (hf : ∀ S a, (f S a).values = S.values)
    (S : Server) (l : List α) : (l.foldl f S).values = S.values := by
  induction l generalizing S with
  | nil => rfl
  | cons a l ih =>
      show (l.foldl f (f S a)).values = S.values
      rw [ih, hf]

theorem deleteVariableNode_values (S : Server) (node : VariableJson) :
    (deleteVariableNode S node).values = S.values := by
  unfold deleteVariableNode
  split <;> rfl

theorem clearNamespace_values (S : Server) (ns : NamespaceJson) :
    (clearNamespace S ns).values = S.values := by
  unfold clearNamespace
  split
  · rfl
  · rename_i nsIndex _
    have hbelow : (deleteObjectNodesRecursive nsIndex (ns.nodes.foldl deleteVariableNode S)
        ns.objectNodes).values = S.values := by
      rw [deleteObjectNodesRecursive_values, foldl_values deleteVariableNode_values]
    cases ns.name with
    | none => exact hbelow
    | some name => exact hbelow

theorem clear_values (S : Server) (config : List NamespaceJson) :
    (addressSpaceClear S config).values = S.values := foldl_values clearNamespace_values S config

/-! ## One node -/

/-- The configuration that a node was last built from, and the updates that were read since. -/
structure Since where
  config : List NamespaceJson
  updates : List Entry

/-- A reload builds the node again if it has been cleared, or was not there. -/
def Since.next (id : NodeId) (ctx : RuntimeContext) (since : Since) : RuntimeEvent → Since
  | .iteration lines =>
      if ctx.reloadRequested ∧ id ∉ keys (addressSpaceClear ctx.server ctx.configFile).nodes then
        ⟨ctx.configFile, (ctx.stdin.take lines).flatten⟩
      else { since with updates := since.updates ++ (ctx.stdin.take lines).flatten }
  | _ => since

/-- The runtime, with what is observed of the node. -/
def observe (ua : Ua) (id : NodeId) (s : RuntimeContext × Since) (e : RuntimeEvent) :
    RuntimeContext × Since :=
  (s.1.step ua e, s.2.next id s.1 e)

def observed (ua : Ua) (id : NodeId) (applicationUri : String) (config : List NamespaceJson)
    (es : List RuntimeEvent) : RuntimeContext × Since :=
  Machine.run (observe ua id) (RuntimeContext.start ua applicationUri config, ⟨config, []⟩) es

/-- The updates in the messages of a run. -/
def sent (es : List RuntimeEvent) : List Entry :=
  es.flatMap (fun e =>
    match e with
    | .line message => message
    | _ => [])

/-- The node shows what the updates have made of an initial value of the configuration. -/
def Shows (ua : Ua) (id : NodeId) (S : Server) (since : Since) : Prop :=
  ∀ dataType, S.HasVariable id dataType → ∃ v, Configures S.namespaces since.config id dataType v ∧
    S.values id = since.updates.foldl (shownAfter ua id dataType) ⟨v, .good⟩

theorem Server.Sound.of_eq {S S' : Server} (h : S.Sound) (hn : S'.nodes = S.nodes)
    (hns : S'.namespaces = S.namespaces) : S'.Sound := by
  refine ⟨by rw [hn]; exact h.wf, fun x hx => ?_⟩
  rw [hns]
  exact h.numbered x (hn ▸ hx)

theorem Configures.internAll {table : List String} {config : List NamespaceJson} {id : NodeId}
    {dataType : OpcUaDataType} {v : Variant} (h : Configures table config id dataType v)
    (hid : Numbered table id) (us : List String) :
    Configures (Intern.internAll table us) config id dataType v := by
  obtain ⟨ns, hns, node, hnode, uri, name, typeStr, hu, hname, htype, hkey, hrest⟩ := h
  refine ⟨ns, hns, node, hnode, uri, name, typeStr, hu, hname, htype, ?_, hrest⟩
  rw [viewKey_internAll hid]
  exact hkey

/-- Updates that are read are applied after those before. -/
theorem Shows.read {ua : Ua} {id : NodeId} {S : Server} {since : Since} (h : Shows ua id S since)
    (hS : S.Sound) (es : List Entry) :
    Shows ua id (es.foldl (applyUpdate ua) S) { since with updates := since.updates ++ es } := by
  obtain ⟨hnodes, hnamespaces, hvalues⟩ := applyUpdates ua hS.wf es
  intro dataType hx
  rw [Server.HasVariable, hnodes] at hx
  obtain ⟨v, hv, hshown⟩ := h dataType hx
  refine ⟨v, by rw [hnamespaces]; exact hv, ?_⟩
  rw [hvalues id dataType hx, hshown, List.foldl_append]

/-- A start builds all nodes. -/
theorem shows_build (ua : Ua) (id : NodeId) {S : Server} (hid : id ∉ keys S.nodes)
    (config : List NamespaceJson) : Shows ua id (addressSpaceBuild ua S config) ⟨config, []⟩ := by
  rintro dataType ⟨x, hx, rfl, hdata⟩
  exact (fills_build ua S config).new x hx (fun hold => hid (Forest.key_mem_keys hold)) dataType hdata

/-- A reload builds the node again, or leaves it as it is. -/
theorem Shows.reload {ua : Ua} {id : NodeId} {S : Server} {since : Since} (h : Shows ua id S since)
    (hS : S.Sound) (config : List NamespaceJson) : Shows ua id (handleReload ua S config)
      (if id ∉ keys (addressSpaceClear S config).nodes then ⟨config, []⟩ else since) := by
  have hC : (addressSpaceClear S config).Sound := hS.clear config
  by_cases hid : id ∉ keys (addressSpaceClear S config).nodes
  · rw [if_pos hid]
    exact shows_build ua id hid config
  · rw [if_neg hid]
    rw [not_not] at hid
    rintro dataType ⟨x, hx, rfl, hdata⟩
    have hfills := fills_build ua (addressSpaceClear S config) config
    obtain ⟨y, hy, hkey⟩ := Forest.mem_keys.mp hid
    obtain rfl : y = x := (hC.build ua config).wf.eq_of_key (hfills.kept hy) hx hkey
    have hold : y ∈ S.nodes := by
      rw [clear_nodes, Forest.deleteAll_eq_keep hS.wf] at hy
      exact Forest.keep_subset _ hy
    obtain ⟨v, hv, hshown⟩ := h dataType ⟨y, hold, rfl, hdata⟩
    refine ⟨v, ?_, ?_⟩
    · show Configures (addressSpaceBuild ua (addressSpaceClear S config) config).namespaces _ _ _ _
      rw [build_namespaces, clear_namespaces]
      exact hv.internAll (hS.numbered y hold) _
    · show (addressSpaceBuild ua (addressSpaceClear S config) config).values y.key = _
      rw [hfills.same y.key hid, clear_values, hshown]

/-! ## Runs -/

/-- What holds of the runtime and the observed node after every run: the updates that were sent are those
read before the node was last built, those read since, and those not read yet. -/
structure Observed (ua : Ua) (id : NodeId) (es : List RuntimeEvent) (s : RuntimeContext × Since) :
    Prop where
  sound : s.1.server.Sound
  shows : Shows ua id s.1.server s.2
  order : ∃ before, sent es = before ++ (s.2.updates ++ s.1.stdin.flatten)

theorem flatten_take_drop (lines : List (List Entry)) (n : Nat) :
    (lines.take n).flatten ++ (lines.drop n).flatten = lines.flatten := by
  rw [← List.flatten_append, List.take_append_drop]

theorem Observed.iteration {ua : Ua} {id : NodeId} {es : List RuntimeEvent} {ctx : RuntimeContext}
    {since : Since} (h : Observed ua id es (ctx, since)) (lines : Nat) :
    Observed ua id (es ++ [.iteration lines]) (observe ua id (ctx, since) (.iteration lines)) := by
  obtain ⟨hS, hshows, before, hsent⟩ := h
  set read := (ctx.stdin.take lines).flatten with hread
  have hserver : (ctx.step ua (.iteration lines)).server =
      read.foldl (applyUpdate ua) (reloaded ua ctx) := foldl_applyValueUpdate ua _ _
  have hsent' : sent (es ++ [.iteration lines]) =
      before ++ (since.updates ++ (read ++ (ctx.stdin.drop lines).flatten)) := by
    rw [sent, List.flatMap_append, List.flatMap_singleton, List.append_nil, flatten_take_drop]
    exact hsent
  have hbuilt : ∃ base : Since, (reloaded ua ctx).Sound ∧ Shows ua id (reloaded ua ctx) base ∧
      since.next id ctx (.iteration lines) = { base with updates := base.updates ++ read } ∧
        (base.updates = since.updates ∨ base.updates = []) := by
    unfold reloaded Since.next
    by_cases hr : ctx.reloadRequested = true
    · rw [if_pos hr]
      have hreload := hshows.reload hS ctx.configFile
      refine ⟨_, (hS.clear _).build ua _, hreload, ?_, ?_⟩
      all_goals
        by_cases hid : id ∉ keys (addressSpaceClear ctx.server ctx.configFile).nodes
        · simp [hr, hid, hread]
        · simp [hr, hid, hread]
    · rw [if_neg hr]
      refine ⟨since, hS, hshows, ?_, Or.inl rfl⟩
      simp only [hr, Bool.false_eq_true, false_and, if_false, hread]
  obtain ⟨base, hsound, hbase, hnext, hupdates⟩ := hbuilt
  obtain ⟨hnodes, hnamespaces, -⟩ := applyUpdates ua hsound.wf read
  refine ⟨?_, ?_, ?_⟩
  · show (ctx.step ua (.iteration lines)).server.Sound
    rw [hserver]
    exact hsound.of_eq hnodes hnamespaces
  · show Shows ua id (ctx.step ua (.iteration lines)).server (since.next id ctx (.iteration lines))
    rw [hserver, hnext]
    exact hbase.read hsound read
  · show ∃ before, _ = before ++ ((since.next id ctx (.iteration lines)).updates ++
      (ctx.stdin.drop lines).flatten)
    rw [hnext, hsent']
    rcases hupdates with hu | hu
    · exact ⟨before, by rw [hu, List.append_assoc]⟩
    · exact ⟨before ++ since.updates, by rw [hu, List.nil_append, List.append_assoc]⟩

theorem observed_holds (ua : Ua) (id : NodeId) (applicationUri : String) (config : List NamespaceJson)
    (es : List RuntimeEvent) : Observed ua id es (observed ua id applicationUri config es) := by
  induction es using List.reverseRecOn with
  | nil =>
      refine ⟨(sound_new applicationUri).build ua config, ?_, [], rfl⟩
      exact shows_build ua id List.not_mem_nil config
  | append_singleton es e ih =>
      rw [observed, Machine.run_snoc]
      obtain ⟨hS, hshows, before, hsent⟩ := ih
      cases e with
      | iteration lines => exact Observed.iteration ⟨hS, hshows, before, hsent⟩ lines
      | line message =>
          refine ⟨hS, hshows, before, ?_⟩
          rw [sent, List.flatMap_append, List.flatMap_singleton]
          show sent es ++ message = before ++ (_ ++ (_ ++ [message]).flatten)
          rw [hsent, List.flatten_append, List.flatten_singleton, List.append_assoc, List.append_assoc]
          rfl
      | writeConfig config' =>
          refine ⟨hS, hshows, before, ?_⟩
          rw [sent, List.flatMap_append, List.flatMap_singleton, List.append_nil]
          exact hsent
      | reloadSignal =>
          refine ⟨hS, hshows, before, ?_⟩
          rw [sent, List.flatMap_append, List.flatMap_singleton, List.append_nil]
          exact hsent

/-! ## The last update -/

/-- The update changes what the node shows: it is bad, or it has a value that passes. -/
def sets (ua : Ua) (id : NodeId) (dataType : OpcUaDataType) (e : Entry) : Bool :=
  updateNodeId e = some id && (updateValue e).any (fun wv =>
    match wv with
    | .badNotConnected => true
    | .good value => ua.writeAccepts dataType value)

theorem shownAfter_of_not_sets {ua : Ua} {id : NodeId} {dataType : OpcUaDataType} {e : Entry}
    (h : sets ua id dataType e = false) (shown : DataValue) :
    shownAfter ua id dataType shown e = shown := by
  unfold shownAfter
  split_ifs with hid
  · unfold sets at h
    rw [decide_eq_true hid, Bool.true_and] at h
    cases hv : updateValue e with
    | none => rfl
    | some wv =>
        rw [hv, Option.any_some] at h
        cases wv with
        | badNotConnected => cases h
        | good value => exact if_neg (Bool.eq_false_iff.mp h)
  · rfl

theorem foldl_of_not_sets {ua : Ua} {id : NodeId} {dataType : OpcUaDataType} {es : List Entry}
    (h : ∀ e ∈ es, sets ua id dataType e = false) (shown : DataValue) :
    es.foldl (shownAfter ua id dataType) shown = shown := by
  induction es generalizing shown with
  | nil => rfl
  | cons e es ih =>
      show es.foldl _ (shownAfter ua id dataType shown e) = shown
      rw [shownAfter_of_not_sets (h e List.mem_cons_self)]
      exact ih (fun e' he' => h e' (List.mem_cons_of_mem e he')) shown

theorem shownAfter_of_sets {ua : Ua} {id : NodeId} {dataType : OpcUaDataType} {e : Entry}
    (h : sets ua id dataType e = true) (shown : DataValue) :
    (e.update.quality = .bad → (shownAfter ua id dataType shown e).status = .badNotConnected) ∧
      (e.update.quality = .good → ∃ v, e.update.value.bind updateVariant = some v ∧
        shownAfter ua id dataType shown e = ⟨v, .good⟩) := by
  unfold sets at h
  rw [Bool.and_eq_true, decide_eq_true_eq] at h
  unfold shownAfter
  rw [if_pos h.1]
  have hvalue := h.2
  unfold updateValue at hvalue ⊢
  constructor
  · intro hq
    rw [hq]
    rfl
  · intro hq
    rw [hq] at hvalue ⊢
    cases hv : e.update.value.bind updateVariant with
    | none =>
        rw [hv] at hvalue
        cases hvalue
    | some v =>
        rw [hv] at hvalue
        exact ⟨v, rfl, if_pos hvalue⟩

/-- In every run, a variable node shows the last update that set it since it was last built: status Bad
after a bad one, the value with status Good after another. If none did since then, it shows its initial
value with status Good. The updates since then are the last ones that were sent and read. -/
theorem shows_since (ua : Ua) (id : NodeId) (applicationUri : String) (config : List NamespaceJson)
    (es : List RuntimeEvent) {dataType : OpcUaDataType}
    (hx : (observed ua id applicationUri config es).1.server.HasVariable id dataType) :
    let s := observed ua id applicationUri config es
    (∃ before, sent es = before ++ (s.2.updates ++ s.1.stdin.flatten)) ∧
    (∀ pre e post, s.2.updates = pre ++ e :: post → sets ua id dataType e = true →
      (∀ e' ∈ post, sets ua id dataType e' = false) →
      (e.update.quality = .bad → (s.1.server.values id).status = .badNotConnected) ∧
      (e.update.quality = .good → ∃ v, e.update.value.bind updateVariant = some v ∧
        s.1.server.values id = ⟨v, .good⟩)) ∧
    ((∀ e ∈ s.2.updates, sets ua id dataType e = false) → ∃ v,
      Configures s.1.server.namespaces s.2.config id dataType v ∧ s.1.server.values id = ⟨v, .good⟩) := by
  obtain ⟨-, hshows, hsent⟩ := observed_holds ua id applicationUri config es
  obtain ⟨v, hv, hshown⟩ := hshows dataType hx
  refine ⟨hsent, fun pre e post hsplit he hpost => ?_, fun hnone => ⟨v, hv, ?_⟩⟩
  · rw [hshown, hsplit, List.foldl_append, List.foldl_cons, foldl_of_not_sets hpost]
    exact shownAfter_of_sets he _
  · rw [hshown, foldl_of_not_sets hnone]

/-! ## A bad value before a reload -/

def levelId : NodeId := ⟨2, "Plant.Hall.level"⟩

/-- The connection of the variable is lost. -/
def badLevel : Entry := ⟨some "ns=2;s=Plant.Hall.level", ⟨"v", some .null, .bad, 0⟩⟩

theorem shows_since_bad :
    ((observed acceptAll levelId "urn:app" hallConfig [.line [badLevel], .iteration 1]).1.server.values
      levelId).status = .badNotConnected := by
  have hx : (observed acceptAll levelId "urn:app" hallConfig
      [.line [badLevel], .iteration 1]).1.server.HasVariable levelId .double :=
    ⟨⟨levelId, some ⟨2, "Plant.Hall"⟩, .variable .double⟩, by decide, rfl, rfl⟩
  exact ((shows_since acceptAll levelId "urn:app" hallConfig _ hx).2.1 [] badLevel [] rfl (by decide)
    nofun).1 rfl

/-- Another variable is added after the bad value was written. -/
def nodeAdded : List RuntimeEvent :=
  [.line [badLevel], .iteration 1,
   .writeConfig (parse ((Config.generate (Db.reach (hallOps ++
      [.createNode "w" ⟨some "flow", some "n1", some "o1", some "Double", none, none⟩]))).getD [])),
   .reloadSignal, .iteration 1]

/-- Everything has been read, the node was there all the time and the last update of it was bad. -/
theorem badStatus_lost :
    let run := fun es => Machine.run (RuntimeContext.step acceptAll)
      (RuntimeContext.start acceptAll "urn:app" hallConfig) es
    (∀ es ∈ nodeAdded.inits, (run es).server.dataType levelId = some .double) ∧
      sent nodeAdded = [badLevel] ∧ updateNodeId badLevel = some levelId ∧
      badLevel.update.quality = .bad ∧ (run nodeAdded).stdin = [] ∧ (run nodeAdded).reloadRequested = false ∧
      ((run nodeAdded).server.values levelId).status = .good := by
  refine ⟨by decide, rfl, by decide, rfl, rfl, rfl, by decide⟩

end OpcuaLight.Runtime
