import OpcuaLight.Runtime.Literals
import OpcuaLight.Runtime.Status

/-!
# The type of a value

The type of a variable node is declared by `get_data_type_id`, its first value comes from
`create_initial_value`, and later ones from `apply_value_update`, which knows the JSON value alone. The
three agree for `Boolean`, `Double` and `String` (`types_agree_iff`). A library that refuses a value of
another type has no nodes of type `DateTime` or `ByteString`, and nodes of the remaining types keep their
initial values (`shows_typed`).
-/

namespace OpcuaLight.Runtime

open Config (NodeConfig)
open Connector (Entry)
open Db (OpcUaDataType)
open Forest (addAll mapKey)

/-! ## The three types -/

def Variant.type : Variant → OpcUaDataType
  | .boolean _ => .boolean
  | .string _ => .string
  | .integer type _ => type
  | .float _ => .float
  | .double _ => .double

/-- The data type in the attributes of the node. -/
def declaredType (node : NodeConfig) : OpcUaDataType := getDataTypeId (cString node.dataType.name)

def initialType (node : NodeConfig) : OpcUaDataType :=
  (createInitialValue (cString node.dataType.name) node.initialValue).type

/-- The type of what an update with the value writes, if it writes. -/
def updateType (v : Json) : Option OpcUaDataType := (updateVariant v).map Variant.type

/-- The JSON values of a data type. A time or a byte string may be given as a text or as a number. -/
def Legal : OpcUaDataType → Json → Prop
  | .boolean, v => ∃ b, v = .bool b
  | .float, v | .double, v => ∃ q, v = .num q
  | .string, v => ∃ s, v = .str s
  | .dateTime, v | .byteString, v => (∃ s, v = .str s) ∨ ∃ q, v = .num q
  | T, v => ∃ range q, integerRange T = some range ∧ v = .num q ∧ InRange range q

@[simp] theorem declaredType_eq (node : NodeConfig) : declaredType node = node.dataType := by
  unfold declaredType
  cases node.dataType <;> rfl

/-- A type name is in the table, or stands for `Double`. -/
theorem getDataTypeId_cases (typeStr : String) : (∃ T : OpcUaDataType, typeStr = T.name) ∨
    (getDataTypeId typeStr = .double ∧ ∀ T : OpcUaDataType, typeStr ≠ T.name) := by
  unfold getDataTypeId
  cases h : dataTypeTable.find? (fun d => d.name = typeStr) with
  | some T => exact .inl ⟨T, (by simpa using List.find?_some h : T.name = typeStr).symm⟩
  | none =>
      refine .inr ⟨rfl, fun T hT => ?_⟩
      have hmem : T ∈ dataTypeTable := by cases T <;> decide
      exact absurd hT.symm (by simpa using List.find?_eq_none.mp h T hmem)

/-- `DateTime` and `ByteString` have no branch of their own. -/
theorem type_createInitialValue (typeStr : String) (valueJson : Option Json) :
    (createInitialValue typeStr valueJson).type =
      if getDataTypeId typeStr = .dateTime ∨ getDataTypeId typeStr = .byteString then .double
      else getDataTypeId typeStr := by
  rcases getDataTypeId_cases typeStr with ⟨T, rfl⟩ | ⟨hdouble, hname⟩
  · rcases valueJson with _ | v
    · cases T <;> rfl
    · cases T <;> cases v <;> rfl
  · have hb : typeStr ≠ "Boolean" := hname .boolean
    have hs : typeStr ≠ "String" := hname .string
    have hdefault : defaultValue typeStr = .double (.finite 0) := by
      unfold defaultValue
      simp [hdouble, hb, hs, integerRange]
    rw [hdouble, if_neg (by decide)]
    rcases valueJson with _ | v
    · rw [createInitialValue, hdefault]
      rfl
    · cases v <;> simp [createInitialValue, hdefault, hdouble, hb, hs, integerRange, Variant.type]

theorem initialType_eq_iff (node : NodeConfig) :
    initialType node = declaredType node ↔ node.dataType ≠ .dateTime ∧ node.dataType ≠ .byteString := by
  rw [initialType, type_createInitialValue, ← declaredType, declaredType_eq]
  cases node.dataType <;> decide

/-- Every number is written as a `Double`. -/
theorem updateType_eq_iff {T : OpcUaDataType} {v : Json} (hv : Legal T v) :
    updateType v = some T ↔ T = .boolean ∨ T = .double ∨ T = .string := by
  have hnum (q : ℚ) : updateType (.num q) = some .double := rfl
  have hstr (s : String) : updateType (.str s) = some .string := rfl
  cases T with
  | boolean =>
      obtain ⟨b, rfl⟩ := hv
      exact iff_of_true rfl (.inl rfl)
  | double =>
      obtain ⟨q, rfl⟩ := hv
      exact iff_of_true (hnum q) (.inr (.inl rfl))
  | string =>
      obtain ⟨s, rfl⟩ := hv
      exact iff_of_true (hstr s) (.inr (.inr rfl))
  | float =>
      obtain ⟨q, rfl⟩ := hv
      rw [hnum]
      decide
  | dateTime | byteString =>
      rcases hv with ⟨s, rfl⟩ | ⟨q, rfl⟩
      · rw [hstr]
        decide
      · rw [hnum]
        decide
  | _ =>
      obtain ⟨range, q, -, rfl, -⟩ := hv
      rw [hnum]
      decide

/-- The initial value and an update with a legal value have the declared type just for these types. -/
theorem types_agree_iff (node : NodeConfig) {v : Json} (hv : Legal node.dataType v) :
    (initialType node = declaredType node ∧ updateType v = some (declaredType node)) ↔
      node.dataType = .boolean ∨ node.dataType = .double ∨ node.dataType = .string := by
  rw [initialType_eq_iff, declaredType_eq, updateType_eq_iff hv]
  cases node.dataType <;> decide

/-- A node that counts pieces. -/
def countNode : NodeConfig := ⟨"count", "ns=2;s=Plant.count", .int32, "Plant", some (.num 5), none, none⟩

theorem types_agree_double : initialType { countNode with dataType := .double } = .double :=
  ((types_agree_iff { countNode with dataType := .double } (v := .num 7) ⟨7, rfl⟩).mpr (.inr (.inl rfl))).1

/-- The count arrives as a `Double`. -/
theorem count_disagrees : ¬ ∀ (node : NodeConfig) (v : Json), Legal node.dataType v →
    initialType node = declaredType node ∧ updateType v = some (declaredType node) := by
  intro h
  have hcount : InRange (-2 ^ 31, 2 ^ 31 - 1) 7 := ⟨7, by norm_num, by decide, by decide⟩
  exact absurd (h countNode (.num 7) ⟨_, _, rfl, rfl, hcount⟩).2 (by decide)

/-! ## Runs -/

/-- The library refuses values of another type. -/
structure Ua.Strict (ua : Ua) : Prop where
  add : ∀ d v, ua.addAccepts d v = true → v.type = d
  write : ∀ d v, ua.writeAccepts d v = true → v.type = d

/-- A variable node, if it is one, was added with a value that passes. -/
def Accepted {κ : Type} (ua : Ua) (x : Item κ NodeClass) : Prop :=
  ∀ d, x.data = .variable d → ∃ typeStr valueJson, d = getDataTypeId typeStr ∧
    ua.addAccepts d (createInitialValue typeStr valueJson) = true

mutual
theorem accepted_objectItems (ua : Ua) (parent : Option String) :
    (o : ObjectJson) → ∀ x ∈ objectItems parent o, Accepted ua x
  | .mk none _ _ => by
      rw [objectItems]
      exact List.forall_mem_nil _
  | .mk (some name) path children => by
      rw [objectItems, List.forall_mem_cons]
      exact ⟨nofun, accepted_objectItemsAll ua _ children⟩

theorem accepted_objectItemsAll (ua : Ua) (parent : Option String) :
    (os : List ObjectJson) → ∀ x ∈ objectItemsAll parent os, Accepted ua x
  | [] => by
      rw [objectItemsAll]
      exact List.forall_mem_nil _
  | o :: os => by
      rw [objectItemsAll, List.forall_mem_append]
      exact ⟨accepted_objectItems ua parent o, accepted_objectItemsAll ua parent os⟩
end

theorem accepted_variableItems (ua : Ua) (node : VariableJson) :
    ∀ x ∈ variableItems ua node, Accepted ua x := by
  intro x hx d hd
  unfold variableItems at hx
  split at hx
  · split_ifs at hx with haccepts
    · rw [List.mem_singleton.mp hx] at hd
      obtain rfl := NodeClass.variable.inj hd
      exact ⟨_, _, rfl, haccepts⟩
    · exact absurd hx List.not_mem_nil
  · exact absurd hx List.not_mem_nil

theorem accepted_build (ua : Ua) {S : Server} (h : ∀ x ∈ S.nodes, Accepted ua x)
    (config : List NamespaceJson) : ∀ x ∈ (addressSpaceBuild ua S config).nodes, Accepted ua x := by
  intro x hx
  rw [build_nodes] at hx
  rcases Forest.mem_of_mem_addAll hx with hx | hx
  · exact h x hx
  · obtain ⟨ns, -, hx⟩ := List.mem_flatMap.mp hx
    cases hu : ns.uri with
    | none =>
        rw [hu] at hx
        exact absurd hx List.not_mem_nil
    | some uri =>
        rw [hu] at hx
        obtain ⟨y, hy, rfl⟩ := List.mem_map.mp hx
        have hitem : Accepted ua y := by
          rcases List.mem_append.mp hy with hy | hy
          · obtain ⟨name, -, rfl⟩ := List.mem_map.mp hy
            exact nofun
          rcases List.mem_append.mp hy with hy | hy
          · exact accepted_objectItemsAll ua _ _ y hy
          · obtain ⟨node, -, hy⟩ := List.mem_flatMap.mp hy
            exact accepted_variableItems ua node y hy
        exact hitem

theorem accepted_reloaded (ua : Ua) {ctx : RuntimeContext} (hS : ctx.server.Sound)
    (h : ∀ x ∈ ctx.server.nodes, Accepted ua x) : ∀ x ∈ (reloaded ua ctx).nodes, Accepted ua x := by
  unfold reloaded
  split_ifs
  · apply accepted_build
    intro x hx
    rw [clear_nodes, Forest.deleteAll_eq_keep hS.wf] at hx
    exact h x (Forest.keep_subset _ hx)
  · exact h

/-- Every variable node of a run was added with a value that passed. -/
theorem accepted_observed (ua : Ua) (id : NodeId) (applicationUri : String)
    (config : List NamespaceJson) (es : List RuntimeEvent) :
    ∀ x ∈ (observed ua id applicationUri config es).1.server.nodes, Accepted ua x := by
  induction es using List.reverseRecOn with
  | nil => exact accepted_build ua (List.forall_mem_nil _) config
  | append_singleton es e ih =>
      have hS := (observed_holds ua id applicationUri config es).sound
      rw [observed, Machine.run_snoc]
      cases e with
      | iteration lines =>
          have hsound : (reloaded ua (observed ua id applicationUri config es).1).Sound := by
            unfold reloaded
            split_ifs
            · exact (hS.clear _).build ua _
            · exact hS
          intro x hx
          have hnodes := (applyUpdates ua hsound.wf
            ((observed ua id applicationUri config es).1.stdin.take lines).flatten).1
          rw [← foldl_applyValueUpdate] at hnodes
          exact accepted_reloaded ua hS ih x (hnodes ▸ hx)
      | _ => exact ih

/-- The types whose values an update can write. -/
def Writable (T : OpcUaDataType) : Prop := T = .boolean ∨ T = .double ∨ T = .string

theorem updateType_writable {v : Json} {T : OpcUaDataType} (h : updateType v = some T) : Writable T := by
  cases v with
  | bool b => exact .inl (Option.some.inj h).symm
  | num q => exact .inr (.inl (Option.some.inj h).symm)
  | str s => exact .inr (.inr (Option.some.inj h).symm)
  | _ => cases h

/-- An update leaves the value, or writes one of the type of the node. -/
theorem shownAfter_value {ua : Ua} (hua : ua.Strict) (id : NodeId) (T : OpcUaDataType)
    (shown : DataValue) (e : Entry) : (shownAfter ua id T shown e).value = shown.value ∨
      ((shownAfter ua id T shown e).value.type = T ∧ Writable T) := by
  unfold shownAfter
  split_ifs
  · cases hv : updateValue e with
    | none => exact .inl rfl
    | some wv =>
        cases wv with
        | badNotConnected => exact .inl rfl
        | good value =>
            show (if _ then _ else _ : DataValue).value = _ ∨
              ((if _ then _ else _ : DataValue).value.type = _ ∧ _)
            split_ifs with haccepts
            · have htype := hua.write T value haccepts
              have hupdate : ∃ v, updateVariant v = some value := by
                unfold updateValue at hv
                cases hq : e.update.quality with
                | bad =>
                    rw [hq] at hv
                    cases hv
                | good =>
                    rw [hq] at hv
                    obtain ⟨w, hw, hwv⟩ := Option.map_eq_some_iff.mp hv
                    obtain ⟨v, -, hv⟩ := Option.bind_eq_some_iff.mp hw
                    exact ⟨v, by rw [hv, WriteValue.good.inj hwv]⟩
              obtain ⟨v, hv⟩ := hupdate
              exact .inr ⟨htype, updateType_writable (by rw [updateType, hv, Option.map_some, htype])⟩
            · exact .inl rfl
  · exact .inl rfl

theorem foldl_shownAfter_value {ua : Ua} (hua : ua.Strict) (id : NodeId) (T : OpcUaDataType)
    (shown : DataValue) (es : List Entry) : (es.foldl (shownAfter ua id T) shown).value = shown.value ∨
      ((es.foldl (shownAfter ua id T) shown).value.type = T ∧ Writable T) := by
  induction es using List.reverseRecOn with
  | nil => exact .inl rfl
  | append_singleton es e ih =>
      rw [List.foldl_append]
      rcases shownAfter_value hua id T (es.foldl (shownAfter ua id T) shown) e with hsame | hwritten
      · rw [List.foldl_cons, List.foldl_nil, hsame]
        exact ih
      · exact .inr hwritten

/-- With a library that refuses values of another type, every node shows a value of its own type in every
run. There is no node of a type whose initial values are refused, and a node whose updates are refused
shows its initial value. -/
theorem shows_typed {ua : Ua} (hua : ua.Strict) (id : NodeId) (applicationUri : String)
    (config : List NamespaceJson) (es : List RuntimeEvent) {T : OpcUaDataType}
    (hx : (observed ua id applicationUri config es).1.server.HasVariable id T) :
    let s := observed ua id applicationUri config es
    T ≠ .dateTime ∧ T ≠ .byteString ∧ (s.1.server.values id).value.type = T ∧
      (Writable T ∨ ∃ v, Configures s.1.server.namespaces s.2.config id T v ∧
        (s.1.server.values id).value = v) := by
  intro s
  have hhas : T ≠ .dateTime ∧ T ≠ .byteString := by
    obtain ⟨x, hmem, -, hdata⟩ := hx
    obtain ⟨typeStr, valueJson, rfl, haccepts⟩ :=
      accepted_observed ua id applicationUri config es x hmem T hdata
    have htype := hua.add _ _ haccepts
    rw [type_createInitialValue] at htype
    split_ifs at htype with hlost
    · rcases hlost with hlost | hlost <;> rw [hlost] at htype <;> cases htype
    · exact not_or.mp hlost
  obtain ⟨v, hv, hshown⟩ := (observed_holds ua id applicationUri config es).shows T hx
  have htype : v.type = T := by
    obtain ⟨-, -, node, -, -, -, typeStr, -, -, -, -, rfl, rfl⟩ := hv
    rw [type_createInitialValue, if_neg (not_or.mpr hhas)]
  refine ⟨hhas.1, hhas.2, ?_⟩
  rcases foldl_shownAfter_value hua id T ⟨v, .good⟩ s.2.updates with hsame | ⟨hwritten, hw⟩
  · rw [hshown, hsame]
    exact ⟨htype, .inr ⟨v, hv, rfl⟩⟩
  · rw [hshown]
    exact ⟨hwritten, .inl hw⟩

end OpcuaLight.Runtime
