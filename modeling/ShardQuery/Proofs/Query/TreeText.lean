import ShardQuery.Proofs.Json.PrintedText
import ShardQuery.Proofs.Query.LiteralPlaces
import ShardQuery.Query.ExpressionJson

/-!
# Trees read back from their text

A node is written as an object that names its kind first and then every field of the kind once, in
order. Its fields are found by these names whatever their values are, so the object is read as the same
node. A tree whose numbers fit 64 bits is read back from its text unless it nests too deep.
-/

namespace ShardQuery

/-! ## Records -/

namespace Json

theorem uniqueMember?_cons_self {name : String} {members : List (String × Json)}
    (h : name ∉ members.map Prod.fst) (v : Json) :
    uniqueMember? name ((name, v) :: members) = some (some v) := by
  have hrest : (members.filter fun m => m.1 = name) = [] := by
    refine List.filter_eq_nil_iff.2 fun m hm => ?_
    rw [decide_eq_true_eq]
    rintro rfl
    exact h (List.mem_map_of_mem hm)
  simp [uniqueMember?, hrest]

theorem uniqueMember?_cons_of_ne {name k : String} (h : k ≠ name) (v : Json)
    (members : List (String × Json)) :
    uniqueMember? name ((k, v) :: members) = uniqueMember? name members := by
  simp [uniqueMember?, h]

theorem record?_cons_of_not_mem {names : List String} {k : String} (h : k ∉ names) (v : Json)
    (members : List (String × Json)) :
    record? names (.object ((k, v) :: members)) = record? names (.object members) := by
  rw [record?, record?]
  induction names with
  | nil => rfl
  | cons name names ih =>
    obtain ⟨hne, hnames⟩ := not_or.1 (mt List.mem_cons.2 h)
    rw [List.mapM_cons, List.mapM_cons, uniqueMember?_cons_of_ne hne, ih hnames]

/-- The fields of an object that has each of the names once are the values beside them. -/
theorem record?_zip {names : List String} (hnames : names.Nodup) {values : List Json}
    (hlength : values.length = names.length) :
    record? names (.object (names.zip values)) = some (values.map some) := by
  induction names generalizing values with
  | nil =>
    obtain rfl := List.length_eq_zero_iff.1 hlength
    rfl
  | cons name names ih =>
    obtain ⟨v, values, rfl⟩ := List.exists_cons_of_length_eq_add_one hlength
    obtain ⟨hname, hnames⟩ := List.nodup_cons.1 hnames
    have hlength : values.length = names.length := Nat.succ.inj hlength
    have hrest := ih hnames hlength
    rw [← record?_cons_of_not_mem hname v] at hrest
    have hself : uniqueMember? name ((name, v) :: names.zip values) = some (some v) :=
      uniqueMember?_cons_self (by rwa [List.map_fst_zip hlength.ge]) v
    rw [record?] at hrest
    rw [List.zip_cons_cons, record?, List.mapM_cons, hself, hrest]
    rfl

end Json

/-! ## Nodes -/

theorem NodeKind.ofTag?_name (numbered : Bool) (k : NodeKind) :
    ofTag? numbered (.string k.name) = some k := by
  cases k <;> rfl

theorem NodeKind.node_not_mem_fieldNames (k : NodeKind) : "node" ∉ k.fieldNames := by
  cases k <;> decide

theorem NodeKind.nodup_fieldNames (k : NodeKind) : k.fieldNames.Nodup := by
  cases k <;> decide

theorem CompareOp.ofJson?_symbol (op : CompareOp) : ofJson? (.string op.symbol) = some op := by
  cases op <;> rfl

theorem Literal.ofJson?_toJson (literal : Literal) : ofJson? literal.toJson = some literal := by
  cases literal <;> rfl

namespace Expression

def kind : Expression → NodeKind
  | .and _ => .and
  | .or _ => .or
  | .not _ => .not
  | .compare .. => .compare
  | .function .. => .function
  | .field _ => .field
  | .value _ => .value

def fieldValues : Expression → List Json
  | .and children | .or children => [.array (toJsons children)]
  | .not child => [child.toJson]
  | .compare op f literal => [.string op.symbol, .string f, literal.toJson]
  | .function scope name args => [.string scope, .string name, .array (toJsons args)]
  | .field name => [.string name]
  | .value literal => [literal.toJson]

theorem length_fieldValues (e : Expression) : e.fieldValues.length = e.kind.fieldNames.length := by
  cases e <;> rfl

theorem toJson_eq (e : Expression) :
    e.toJson = .object (("node", .string e.kind.name) :: e.kind.fieldNames.zip e.fieldValues) := by
  cases e <;> rfl

theorem nodeFields?_toJson (numbered : Bool) (e : Expression) :
    nodeFields? numbered e.toJson = some (e.kind, e.fieldValues.map some) := by
  have htag : Json.uniqueMember? "node"
      (("node", .string e.kind.name) :: e.kind.fieldNames.zip e.fieldValues) =
        some (some (.string e.kind.name)) := by
    refine Json.uniqueMember?_cons_self ?_ _
    rw [List.map_fst_zip e.length_fieldValues.ge]
    exact e.kind.node_not_mem_fieldNames
  have hfields : Json.record? e.kind.fieldNames e.toJson = some (e.fieldValues.map some) := by
    rw [toJson_eq, Json.record?_cons_of_not_mem e.kind.node_not_mem_fieldNames,
      Json.record?_zip e.kind.nodup_fieldNames e.length_fieldValues]
  rw [toJson_eq] at hfields ⊢
  simp [nodeFields?, htag, NodeKind.ofTag?_name, hfields]

theorem allOfJson?_toJsons {es : List Expression}
    (h : ∀ e ∈ es, ofJson? true e.toJson = some e) : allOfJson? (toJsons es) = some es := by
  induction es with
  | nil => rw [toJsons, allOfJson?]
  | cons e es ih =>
    obtain ⟨he, hes⟩ := List.forall_mem_cons.1 h
    rw [toJsons, allOfJson?, he, ih hes]
    rfl

theorem listOfJson?_toJsons {es : List Expression}
    (h : ∀ e ∈ es, ofJson? true e.toJson = some e) :
    listOfJson? (.array (toJsons es)) = some es := by
  rw [listOfJson?, allOfJson?_toJsons h]

theorem ofJson?_toJson (numbered : Bool) (e : Expression) :
    ofJson? numbered e.toJson = some e := by
  -- Parts are read with numbered tags even where the root is not.
  induction e using tree_induct generalizing numbered with
  | and children ih =>
    have hchildren := listOfJson?_toJsons fun e he => ih e he true
    rw [ofJson?, nodeFields?_toJson]
    exact congrArg (Option.map Expression.and) hchildren
  | or children ih =>
    have hchildren := listOfJson?_toJsons fun e he => ih e he true
    rw [ofJson?, nodeFields?_toJson]
    exact congrArg (Option.map Expression.or) hchildren
  | not child ih =>
    rw [ofJson?, nodeFields?_toJson]
    exact congrArg (Option.map Expression.not) (ih true)
  | compare op f literal =>
    rw [ofJson?, nodeFields?_toJson]
    change ((CompareOp.ofJson? (.string op.symbol)).bind fun op =>
      (Literal.ofJson? literal.toJson).bind fun literal => some (Expression.compare op f literal)) = _
    rw [CompareOp.ofJson?_symbol, Literal.ofJson?_toJson, Option.bind_some, Option.bind_some]
  | function scope name args ih =>
    have hargs := listOfJson?_toJsons fun e he => ih e he true
    rw [ofJson?, nodeFields?_toJson]
    change ((listOfJson? (.array (toJsons args))).bind fun args =>
      some (Expression.function scope name args)) = _
    rw [hargs, Option.bind_some]
  | field name =>
    rw [ofJson?, nodeFields?_toJson]
    rfl
  | value literal =>
    rw [ofJson?, nodeFields?_toJson]
    exact congrArg (Option.map Expression.value) (Literal.ofJson?_toJson literal)

/-! ## Through the text -/

theorem exact_array_toJsons {es : List Expression} (h : ∀ e ∈ es, e.toJson.Exact) :
    (Json.array (toJsons es)).Exact := by
  refine .array fun v hv => ?_
  induction es with
  | nil => exact absurd hv List.not_mem_nil
  | cons e es ih =>
    obtain ⟨he, hes⟩ := List.forall_mem_cons.1 h
    rcases List.mem_cons.1 hv with rfl | hv
    · exact he
    · exact ih hes hv

theorem exact_toJson_of_literal {literal : Literal}
    (h : ∀ n, literal = .number n → n.IsWord) : literal.toJson.Exact := by
  cases literal with
  | null => exact .null
  | bool b => exact .bool b
  | number n => exact .number (h n rfl)
  | string s => exact .string s

theorem exact_toJson_of_fieldValues {e : Expression} (h : ∀ v ∈ e.fieldValues, v.Exact) :
    e.toJson.Exact := by
  rw [toJson_eq]
  refine .object (List.forall_mem_cons.2 ⟨.string _, fun m hm => ?_⟩)
  exact h m.2 (List.of_mem_zip hm).2

theorem exact_toJson {e : Expression} (h : ∀ n, .number n ∈ e.literals → n.IsWord) :
    e.toJson.Exact := by
  induction e using tree_induct with
  | and children ih | or children ih =>
    rw [literals] at h
    have hchildren := exact_array_toJsons fun e he =>
      ih e he fun n hn => h n (List.mem_flatMap_of_mem he hn)
    exact exact_toJson_of_fieldValues (List.forall_mem_singleton.2 hchildren)
  | function scope name args ih =>
    rw [literals] at h
    have hargs := exact_array_toJsons fun e he =>
      ih e he fun n hn => h n (List.mem_flatMap_of_mem he hn)
    exact exact_toJson_of_fieldValues (by simp [fieldValues, Json.Exact.string, hargs])
  | not child ih =>
    rw [literals] at h
    exact exact_toJson_of_fieldValues (List.forall_mem_singleton.2 (ih h))
  | compare op f literal | value literal =>
    rw [literals] at h
    have hliteral : literal.toJson.Exact :=
      exact_toJson_of_literal fun n hn => h n (List.mem_singleton.2 hn.symm)
    exact exact_toJson_of_fieldValues (by simp [fieldValues, Json.Exact.string, hliteral])
  | field name => exact exact_toJson_of_fieldValues (List.forall_mem_singleton.2 (.string name))

/-- A tree whose text nests too deep is not read, and any other is read back. -/
theorem parse?_render_toJson {e : Expression} (h : ∀ n, .number n ∈ e.literals → n.IsWord) :
    parse? e.toJson.render = if e.toJson.depth ≤ Json.depthLimit then some e else none := by
  rw [parse?, Json.readWhole?_render (exact_toJson h)]
  split
  · rw [Option.bind_some, ofJson?_toJson]
  · rfl

/-- A tree of 64-bit integers that does not nest too deep is read back from its text. -/
theorem parse?_render_toJson_eq_some {e : Expression}
    (hnumbers : ∀ n, .number n ∈ e.literals → n.IsWord)
    (hdepth : e.toJson.depth ≤ Json.depthLimit) : parse? e.toJson.render = some e := by
  rw [parse?_render_toJson hnumbers, if_pos hdepth]

/-- Both ends of the 64 bits, every kind of literal and of node, and lists without a member. -/
theorem parse?_render_toJson_eq_some_query :
    let e : Expression :=
      .and [.or [], .not (.compare .unmatching "naïve \"field\"" (.number (.int (-2 ^ 63)))),
        .function "f" "g" [.field "[]", .value .null, .value (.bool false)],
        .compare .lessEqual "" (.number (.int (2 ^ 64 - 1))), .function "" "" [],
        .value (.string "1\n\\")]
    (∀ n, .number n ∈ e.literals → n.IsWord) ∧ e.toJson.depth = 5 ∧
      parse? e.toJson.render = some e := by
  intro e
  have hnumbers : ∀ n, .number n ∈ e.literals → n.IsWord := by
    simp [e, literals, Json.Number.IsWord]
  have hdepth : e.toJson.depth = 5 := by decide
  have hlimit : e.toJson.depth ≤ Json.depthLimit := by rw [hdepth]; decide
  exact ⟨hnumbers, hdepth, parse?_render_toJson_eq_some hnumbers hlimit⟩

end Expression
end ShardQuery
