import UriRouting.Proofs.Dispatch.Reassembled
import UriRouting.Proofs.Number.Decimal
/-!
# Generating from the values of a match

The values that a match returns are texts of the request in the types of their variables, or defaults of
variables that were left out. They always generate a path, and a host unless a value in it is no text of
the request: a number may be written in another way than it was read, and a default may hold what ends a
label.

Main statements: `Template.IsCompiled.regenerates` and `RouteTable.regenerates_dispatch`.
-/

namespace UriRouting

open UriRouting.Tree

namespace Template

/-! ## Values that are written otherwise -/

theorem toList_text_int (i : Int64) : (Value.int i).text.toList = Number.writeInteger i :=
  String.toList_ofList

theorem toList_text_float (x : Binary64) :
    (Value.float x).text.toList = x.write Binary64.plainStyle :=
  String.toList_ofList

/-- A text in the type of its variable is the text, an integer or a number. -/
theorem coerce_cases (type : ValueType) (text : String) :
    Value.coerce type text = .string text ∨ (∃ i, Value.coerce type text = .int i)
      ∨ ∃ x, Value.coerce type text = .float x := by
  cases type with
  | string => exact Or.inl rfl
  | int =>
    rw [Value.coerce]
    cases Number.readInteger text.toList with
    | none => exact Or.inl rfl
    | some i => exact Or.inr (Or.inl ⟨i, rfl⟩)
  | float =>
    rw [Value.coerce]
    cases Binary64.ofText? text.toList with
    | none => exact Or.inl rfl
    | some x => exact Or.inr (Or.inr ⟨x, rfl⟩)

theorem forbids_of_isDigit (side : Side) {c : Char} (hc : c.isDigit = true) :
    side.forbids c = false := by
  by_contra hforbids
  cases side with
  | path =>
    obtain rfl : c = '/' := by simpa [Side.forbids] using hforbids
    cases hc
  | host =>
    have heq : c = '.' ∨ c = '\x00' := by simpa [Side.forbids, or_iff_not_imp_left] using hforbids
    rcases heq with rfl | rfl <;> cases hc

/-- An integer fits on each side. -/
theorem admits_int (side : Side) (i : Int64) : side.Admits (Value.int i).text.toList := by
  have hdigits : ∀ c ∈ Nat.toDigits 10 i.toInt.natAbs, side.forbids c = false :=
    fun c hc => forbids_of_isDigit side (Number.isDigit_of_mem_toDigits c hc)
  rw [toList_text_int]
  refine ⟨Number.writeSigned_ne_nil _, ?_⟩
  simp only [Number.writeInteger, Number.writeSigned]
  split
  · exact List.forall_mem_cons.2 ⟨by cases side <;> rfl, hdigits⟩
  · exact hdigits

/-- A number fits in a path. -/
theorem admits_float (x : Binary64) : Side.path.Admits (Value.float x).text.toList := by
  rw [toList_text_float]
  refine ⟨Binary64.write_ne_nil _ x, ?_⟩
  intro c hc
  have hnumeric := Binary64.isNumeric_of_mem_write _ x c hc
  by_contra hslash
  obtain rfl : c = '/' := by simpa [Side.forbids] using hslash
  cases hnumeric

/-- A value is only refused in a path if its own text is, and in a host also if it is a number. -/
theorem admits_coerce {side : Side} {text : String} (h : side.Admits text.toList) (type : ValueType) :
    side.Admits (Value.coerce type text).text.toList
      ∨ side = .host ∧ ∃ x, Value.coerce type text = .float x := by
  rcases coerce_cases type text with hvalue | ⟨i, hvalue⟩ | ⟨x, hvalue⟩
  · rw [hvalue]
    exact Or.inl h
  · rw [hvalue]
    exact Or.inl (admits_int side i)
  · cases side with
    | path =>
      rw [hvalue]
      exact Or.inl (admits_float x)
    | host => exact Or.inr ⟨rfl, x, hvalue⟩

/-! ## Writing from values that were returned -/

/-- A text is written, or a value is refused that its variable cannot stand for: no variable is
missing. -/
def Supplies (side : Side) (values : Values) (names : List String) :
    Except GenerationError String → Prop
  | .ok _ => True
  | .error e => ∃ name ∈ names, ∃ value, values.lookup name = some value
      ∧ ¬ side.Admits value.text.toList ∧ e = .unfitValue name value.text

section

variable {side : Side} {values : Values}

theorem Supplies.mono {names names' : List String} {result : Except GenerationError String}
    (h : Supplies side values names result) (hsubset : names ⊆ names') :
    Supplies side values names' result := by
  cases result with
  | ok text => trivial
  | error e =>
    obtain ⟨name, hname, hvalue⟩ := h
    exact ⟨name, hsubset hname, hvalue⟩

/-- Parts are written one after another, up to the first value that is refused. -/
theorem supplies_renderAll {parts : List Tree}
    (h : ∀ part ∈ parts, (∀ name ∈ directVariables [part], (values.lookup name).isSome = true) →
      Supplies side values part.variableNames (render side values part))
    (hsupplied : ∀ name ∈ directVariables parts, (values.lookup name).isSome = true) :
    Supplies side values (variableNamesOf parts) (renderAll side values parts) := by
  induction parts with
  | nil => trivial
  | cons part parts ih =>
    obtain ⟨hpart, hparts⟩ := List.forall_mem_cons.1 h
    rw [directVariables_cons, List.forall_mem_append] at hsupplied
    have hfirst := hpart hsupplied.1
    have hrest := ih hparts hsupplied.2
    rw [variableNamesOf, renderAll]
    cases hrender : render side values part with
    | error e =>
      rw [hrender] at hfirst
      exact hfirst.mono (List.subset_append_left _ _)
    | ok first =>
      cases hrenders : renderAll side values parts with
      | error e =>
        rw [hrenders] at hrest
        exact hrest.mono (List.subset_append_right _ _)
      | ok rest => trivial

/-- Where the variables directly among the parts of a template have values, no variable is missing. -/
theorem supplies_render {depth : Nat} {tree : Tree} (htree : Grammatical depth tree)
    (hsupplied : ∀ name ∈ directVariables [tree], (values.lookup name).isSome = true) :
    Supplies side values tree.variableNames (render side values tree) := by
  induction htree with
  | literal =>
    rw [render]
    trivial
  | @«variable» _ name calls default =>
    obtain ⟨value, hvalue⟩ := Option.isSome_iff_exists.1 (hsupplied name List.mem_cons_self)
    obtain ⟨hwrites, hrefuses⟩ := @variableText_of_lookup side _ _ default _ hvalue
    rw [render]
    by_cases hadmits : side.Admits value.text.toList
    · rw [hwrites hadmits]
      trivial
    · rw [hrefuses hadmits]
      exact ⟨name, List.mem_cons_self, value, hvalue, hadmits, rfl⟩
  | @optional _ parts _ _ _ ih =>
    rw [render]
    split
    · rename_i hwritten
      rw [isSupplied, Bool.and_eq_true, List.all_eq_true] at hwritten
      rw [Tree.variableNames]
      exact supplies_renderAll (fun part hpart => ih part hpart) hwritten.2
    · trivial

end

/-- The names of the variables in the host of a template. -/
def hostNames (template : Template) : List String :=
  template.hostTree?.elim [] Tree.variableNames

section

variable {book : RuleBook} {template : Template}

/-- The texts of a cover are such that variables can stand for them. -/
theorem Covers.admits (h : template.IsRead book) {text : List Char}
    {captured : List (String × List Char)} (hcovers : template.Covers text captured) {name : String}
    {own : List Char} (hown : captured.lookup name = some own) :
    (name ∈ template.hostNames → Side.host.Admits own)
      ∧ (name ∈ template.path.tree.variableNames → Side.path.Admits own) := by
  have hdisjoint := List.disjoint_of_nodup_append h.nodup_names
  cases hcovers with
  | @intro _ _ _ _ captured captured' _ hhost hpath =>
    rw [List.lookup_append] at hown
    constructor
    · intro hname
      have hnone := lookup_eq_none_of_sublist (names_of_derives hpath) (hdisjoint hname)
      rw [hnone, Option.or_none] at hown
      obtain ⟨before, after, hsplit, -⟩ := List.lookup_eq_some_iff.1 hown
      exact hhost.admits (name, own) (by simp [hsplit])
    · intro hname
      have hnone := lookup_eq_none_of_sublist hhost.names fun hmem => hdisjoint hmem hname
      rw [hnone, Option.none_or] at hown
      obtain ⟨before, after, hsplit, -⟩ := List.lookup_eq_some_iff.1 hown
      exact admits_of_derives hpath (name, own) (by simp [hsplit])

/-- The text that a match has for a variable: a text of the request, or the default of a variable that
was left out. -/
theorem Covers.text_cases (h : template.IsRead book) {text : List Char}
    {captured : List (String × List Char)} (hcovers : template.Covers text captured)
    {captures : Pattern.Captures}
    (hget : ∀ name, captures.get? name = (captured.lookup name).map String.ofList) {v : Variable}
    (hv : v ∈ template.vars) {given : String} (hgiven : v.text? captures = some given) :
    captured.lookup v.name = some given.toList ∨ v.optional = true ∧ v.default = some given := by
  rw [Variable.text?, hget] at hgiven
  cases hlookup : captured.lookup v.name with
  | some own =>
    rw [hlookup, Option.map_some, Option.some_or, Option.some.injEq] at hgiven
    rw [← hgiven, String.toList_ofList]
    exact Or.inl rfl
  | none =>
    rw [hlookup, Option.map_none, Option.none_or] at hgiven
    refine Or.inr ⟨?_, hgiven⟩
    cases hoptional : v.optional with
    | true => rfl
    | false =>
      have hsome := hcovers.isSome_lookup h hv hoptional
      rw [hlookup] at hsome
      cases hsome

/-- A variable with a text in a cover has a value. -/
theorem IsRead.isSome_lookup_valuesOf (h : template.IsRead book)
    {captured : List (String × List Char)} {captures : Pattern.Captures}
    (hget : ∀ name, captures.get? name = (captured.lookup name).map String.ofList) {name : String}
    (hname : name ∈ template.variableNames) (hsome : (captured.lookup name).isSome = true) :
    ((valuesOf captures template.vars).lookup name).isSome = true := by
  obtain ⟨v, hv, rfl⟩ := List.mem_map.1 hname
  obtain ⟨own, hown⟩ := Option.isSome_iff_exists.1 hsome
  rw [lookup_valuesOf h.nodup_vars hv, Variable.text?, hget, hown]
  rfl

/-- No variable of a side is missing from the values of a match. -/
theorem IsRead.supplies_valuesOf (h : template.IsRead book)
    {captured captured' : List (String × List Char)} {captures : Pattern.Captures}
    (hget : ∀ name, captures.get? name = (captured.lookup name).map String.ofList) {side : Side}
    {source : String} {tree : Tree} (hparse : Tree.parse source = .ok tree)
    (hnames : tree.variableNames ⊆ template.variableNames) {text : List Char} {choices : List Nat}
    (hderives : Tree.Derives side tree text choices captured')
    (hsome : ∀ name, (captured'.lookup name).isSome = true → (captured.lookup name).isSome = true) :
    Supplies side (valuesOf captures template.vars) tree.variableNames
      (renderAll side (valuesOf captures template.vars) tree.parts) := by
  obtain ⟨parts, rfl, hparts⟩ := grammatical_of_parse hparse
  rw [Tree.variableNames] at hnames ⊢
  cases hderives with
  | sequence hderives =>
    refine supplies_renderAll (fun part hpart => supplies_render (hparts.part part hpart)) ?_
    intro name hname
    apply h.isSome_lookup_valuesOf hget (hnames (mem_variableNamesOf_of_directVariables hname))
    exact hsome name (isSome_lookup_of_directVariables hderives name hname)

end

theorem toList_coerce_ne_nil {text : String} (h : text.toList ≠ []) (type : ValueType) :
    (Value.coerce type text).text.toList ≠ [] := by
  rcases coerce_cases type text with hvalue | ⟨i, hvalue⟩ | ⟨x, hvalue⟩
  · rwa [hvalue]
  · rw [hvalue]
    exact (admits_int .path i).1
  · rw [hvalue]
    exact (admits_float x).1

/-- The value of a variable is refused in the host. It is a number that is not written as it was read,
or it is the default of an optional variable. -/
structure RefusedInHost (template : Template) (values : Values) (v : Variable) (value : Value) :
    Prop where
  /-- The variable stands in the host. -/
  name : v.name ∈ template.hostNames
  /-- The value is that of the variable. -/
  lookup : values.lookup v.name = some value
  /-- It is refused. -/
  error : template.buildHost values = .error (.unfitValue v.name value.text)
  /-- It does not stay inside its label. -/
  ends : ∃ c ∈ value.text.toList, Side.host.forbids c = true
  /-- It is no text of the request. -/
  cause : (∃ x, value = .float x) ∨ v.optional = true ∧ v.default = some value.text

/-- What values generate that a match returned: the path, and the host unless a value is refused in
it. -/
structure Regenerates (template : Template) (values : Values) : Prop where
  /-- There is a path. -/
  path : ∃ uri, template.buildPath values = .ok uri
  /-- There is a host. -/
  host : (∃ host, template.buildHost values = .ok host)
    ∨ ∃ v ∈ template.vars, ∃ value, template.RefusedInHost values v value

section

variable {book : RuleBook} {template : Template} {text : List Char}
  {captured : List (String × List Char)} {captures : Pattern.Captures}

theorem IsRead.exists_buildPath (h : template.IsRead book) (hcovers : template.Covers text captured)
    (hget : ∀ name, captures.get? name = (captured.lookup name).map String.ofList) :
    ∃ uri, template.buildPath (valuesOf captures template.vars) = .ok uri := by
  have hnames : template.path.tree.variableNames ⊆ template.variableNames := by
    rw [h.variableNames_eq]
    exact List.subset_append_right _ _
  have hsupplies : Supplies .path (valuesOf captures template.vars) template.path.tree.variableNames
      (renderAll .path (valuesOf captures template.vars) template.path.tree.parts) := by
    cases hcovers with
    | intro _ _ hpath =>
      refine h.supplies_valuesOf hget h.path hnames hpath ?_
      intro name hsome
      rw [List.lookup_append, Option.isSome_or, hsome, Bool.or_true]
  rw [buildPath]
  cases hrender : renderAll .path (valuesOf captures template.vars) template.path.tree.parts with
  | ok path => exact ⟨_, rfl⟩
  | error e =>
    -- neither a text of the request nor a default is refused in a path
    rw [hrender] at hsupplies
    obtain ⟨name, hname, value, hlookup, hrefused, -⟩ := hsupplies
    obtain ⟨v, hv, rfl, given, hgiven, rfl⟩ := exists_of_lookup_valuesOf hlookup
    have hadmits : Side.path.Admits given.toList := by
      rcases hcovers.text_cases h hget hv hgiven with hown | ⟨-, hdefault⟩
      · exact (hcovers.admits h hown).2 hname
      · exact (h.isDefault hv hdefault).admits
    rcases admits_coerce hadmits v.type with hfits | ⟨hside, -⟩
    · exact absurd hfits hrefused
    · cases hside

/-- A value that is refused in the host is no text of the request. -/
theorem IsRead.exists_refusedInHost (h : template.IsRead book) (hcovers : template.Covers text captured)
    (hget : ∀ name, captures.get? name = (captured.lookup name).map String.ofList) {name : String}
    (hname : name ∈ template.hostNames) {value : Value}
    (hlookup : (valuesOf captures template.vars).lookup name = some value)
    (hrefused : ¬ Side.host.Admits value.text.toList)
    (herror : template.buildHost (valuesOf captures template.vars)
      = .error (.unfitValue name value.text)) :
    ∃ v ∈ template.vars, template.RefusedInHost (valuesOf captures template.vars) v value := by
  obtain ⟨v, hv, rfl, given, hgiven, rfl⟩ := exists_of_lookup_valuesOf hlookup
  have hgivens := hcovers.text_cases h hget hv hgiven
  have hne : given.toList ≠ [] := by
    rcases hgivens with hown | ⟨-, hdefault⟩
    · exact ((hcovers.admits h hown).1 hname).1
    · exact (h.isDefault hv hdefault).ne_nil
  refine ⟨v, hv, hname, hlookup, herror, ?_, ?_⟩
  · by_contra hnone
    apply hrefused
    exact ⟨toList_coerce_ne_nil hne v.type, fun c hc => by simpa using mt (fun hf => ⟨c, hc, hf⟩) hnone⟩
  · rcases hgivens with hown | ⟨hoptional, hdefault⟩
    · rcases admits_coerce ((hcovers.admits h hown).1 hname) v.type with hfits | ⟨-, hfloat⟩
      · exact absurd hfits hrefused
      · exact Or.inl hfloat
    · rcases coerce_cases v.type given with hvalue | ⟨i, hvalue⟩ | hfloat
      · rw [hvalue]
        exact Or.inr ⟨hoptional, hdefault⟩
      · rw [hvalue] at hrefused
        exact absurd (admits_int .host i) hrefused
      · exact Or.inl hfloat

theorem IsRead.buildHost_cases (h : template.IsRead book) (hcovers : template.Covers text captured)
    (hget : ∀ name, captures.get? name = (captured.lookup name).map String.ofList) :
    (∃ host, template.buildHost (valuesOf captures template.vars) = .ok host)
      ∨ ∃ v ∈ template.vars, ∃ value,
        template.RefusedInHost (valuesOf captures template.vars) v value := by
  cases hside : template.host with
  | none => exact Or.inl ⟨none, by rw [buildHost, hside]⟩
  | some side =>
    have hhostNames : template.hostNames = side.tree.variableNames := by
      rw [hostNames, hostTree?, hside]
      rfl
    have hnames : side.tree.variableNames ⊆ template.variableNames := by
      rw [h.variableNames_eq, ← hhostNames]
      exact List.subset_append_left _ _
    have hsupplies : Supplies .host (valuesOf captures template.vars) side.tree.variableNames
        (renderAll .host (valuesOf captures template.vars) side.tree.parts) := by
      cases hcovers with
      | intro _ hhost _ =>
        rw [hostTree?, hside] at hhost
        cases hhost with
        | own hhost =>
          refine h.supplies_valuesOf hget (h.host side hside) hnames hhost ?_
          intro name hsome
          rw [List.lookup_append, Option.isSome_or, hsome, Bool.true_or]
    rw [buildHost, hside]
    cases hrender : renderAll .host (valuesOf captures template.vars) side.tree.parts with
    | ok host => exact Or.inl ⟨some host, by simp only [hrender, Except.map]⟩
    | error e =>
      rw [hrender] at hsupplies
      obtain ⟨name, hname, value, hlookup, hrefused, rfl⟩ := hsupplies
      have herror : template.buildHost (valuesOf captures template.vars)
          = .error (.unfitValue name value.text) := by
        simp only [buildHost, hside, hrender, Except.map]
      obtain ⟨v, hv, hrefusedInHost⟩ :=
        h.exists_refusedInHost hcovers hget (hhostNames ▸ hname) hlookup hrefused herror
      exact Or.inr ⟨v, hv, value, hrefusedInHost⟩

/-- The values of a match generate a path, and a host unless a value is refused in it. -/
theorem IsCompiled.regenerates (h : template.IsCompiled book) {subject : String}
    {values : List (String × Value)} (hmatched : template.extract subject = .matched values) :
    template.Regenerates values := by
  obtain ⟨captures, captured, hcovers, hget, rfl⟩ := h.exists_covers_of_extract hmatched
  exact ⟨h.toIsRead.exists_buildPath hcovers hget, h.toIsRead.buildHost_cases hcovers hget⟩

end

/-! ## A number in a host -/

/-- A variable in front of a literal stands for what is left of a text in front of it. -/
theorem eq_of_derives_variable {side : Side} {name own : String} {calls : List RuleCall}
    {default : Option String} {text value rest : List Char} {choices : List Nat}
    {captured : List (String × List Char)} (htext : text = value ++ rest)
    (hlength : rest.length = own.toList.length)
    (h : Tree.Derives side (.sequence [.variable name calls default, .literal own]) text choices
      captured) : captured = [(name, value)] := by
  cases h with
  | sequence h =>
    cases h with
    | @cons _ _ value' _ _ _ _ _ hvalue h =>
      cases hvalue with
      | «variable» =>
        cases h with
        | @cons _ _ rest' _ _ _ _ _ hrest h =>
          cases h
          cases hrest with
          | literal hrest =>
            rw [List.append_nil] at htext
            obtain ⟨rfl, -⟩ := List.append_inj' htext (hrest.length_eq.symm.trans hlength.symm)
            rfl

theorem parse_number : Tree.parse ":x(float).b"
    = .ok (.sequence [.variable "x" [⟨"float", []⟩] none, .literal ".b"]) := by
  cbv
  exact eq_of_bind_read (by cbv)

/-- The match of a number in a host. -/
theorem exists_extract_number : ∃ template,
    compile .standard "/b" (some ":x(float).b") = .ok template
      ∧ template.host = some ⟨":x(float).b", .sequence [.variable "x" [⟨"float", []⟩] none, .literal ".b"]⟩
      ∧ template.extract (subject "1e-1.b" "/b") = .matched [("x", .float ⟨0x3FB999999999999A⟩)] := by
  have hcompile := @compile_of_parse .standard "/b" (.sequence [.literal "b"])
    (some ⟨":x(float).b", .sequence [.variable "x" [⟨"float", []⟩] none, .literal ".b"]⟩)
    [⟨"x", [⟨"float", []⟩], [.float], none, false, .float⟩]
    (by cbv) (by rintro side ⟨⟩; exact parse_number) (by cbv) (by decide) (by decide +kernel)
  refine ⟨_, hcompile, rfl, ?_⟩
  obtain ⟨-, -, hcompiled⟩ := compile_eq_ok hcompile
  have hhost : DerivesAll .host [.variable "x" [⟨"float", []⟩] none, .literal ".b"]
      ("1e-1".toList ++ (".b".toList ++ [])) _ _ :=
    .cons (.variable (by decide) (by simp [Side.forbids]))
      (.cons (.literal (.cons (by decide) (.cons (by decide) .nil))) .nil)
  have hpath : DerivesAll .path [.literal "b"] ("b".toList ++ []) _ _ :=
    .cons (.literal (.cons rfl .nil)) .nil
  have hseparable : Separable (some (.sequence [.variable "x" [⟨"float", []⟩] none, .literal ".b"])) := by
    rintro tree ⟨⟩
    exact ⟨_, by decide, made_of_parse parse_number⟩
  obtain ⟨captures, choices, captured, hextract, hfavours, hget⟩ :=
    @IsCompiled.exists_captures _ _ hcompiled hseparable "1e-1.b" "/b" (by decide) _ _
      (.intro (.own (.sequence hhost)) (.sequence hpath))
  have hcaptured : captured = [("x", "1e-1".toList)] := by
    cases hfavours.derives with
    | intro h h' =>
      cases h with
      | own h =>
        have hx := @eq_of_derives_variable _ _ _ _ _ _ "1e-1".toList ".b".toList _ _ rfl rfl h
        generalize (stripSlashes "/b").toList = path at h'
        cases h' with
        | sequence h' =>
          cases h' with
          | cons h' hrest =>
            cases h'
            cases hrest
            rw [hx]
            rfl
  have hx : captures.get? "x" = some "1e-1" := by
    rw [hget, hcaptured]
    rfl
  have hpasses : Rule.float.passes "1e-1" = true := by decide +kernel
  have hvalue : Value.coerce .float "1e-1" = .float ⟨0x3FB999999999999A⟩ := by decide +kernel
  rw [hextract]
  simp [readVariables, Variable.text?, hx, Variable.failedRule?, hpasses, hvalue]

end Template

namespace RouteTable

/-- The values that are returned for a request generate a path, and a host unless a value is refused in
it. No variable is missing. Each route may have been made with rules of its own. -/
theorem regenerates_dispatch {routes : List Route} {table : RouteTable}
    (hroutes : ∀ route ∈ routes, ∃ (book : RuleBook) (declaration : Declaration),
      declaration.compile book = .ok route)
    (htable : ofRoutes routes = .ok table) {request : Request} {found : RouteMatch}
    (h : table.dispatch request = .ok found) : found.route.template.Regenerates found.values := by
  have hdecides := decides_dispatch htable request
  rw [h] at hdecides
  cases hdecides with
  | @found before after route values hsplit hanswers _ =>
    have hmem : route ∈ routes := by
      rw [hsplit]
      exact List.mem_append_right _ List.mem_cons_self
    obtain ⟨_, declaration, hcompile⟩ := hroutes route hmem
    obtain ⟨_, template, -, htemplate, rfl⟩ := Declaration.compile_eq_ok_iff.1 hcompile
    exact (Template.compile_eq_ok htemplate).2.2.regenerates hanswers.extract_eq

/-- A declared route without headers, in a table of its own, is found by the requests that its template
matches. -/
theorem exists_table_of_compile {book : RuleBook} {declaration : Declaration} {action : Action}
    {template : Template} (haction : declaration.action = some action)
    (hheaders : declaration.headers = .empty)
    (hcompile : Template.compile book declaration.path declaration.host = .ok template) :
    ∃ route table, declaration.compile book = .ok route ∧ ofRoutes [route] = .ok table
      ∧ route.template = template
      ∧ ∀ request values, request.method ∈ declaration.methods →
          template.extract request.subject = .matched values →
            table.dispatch request = .ok ⟨0, route, values⟩ := by
  have hroute := Declaration.compile_eq_ok_iff.2 ⟨action, template, haction, hcompile, rfl⟩
  obtain ⟨table, htable⟩ := exists_ofRoutes_singleton _
  refine ⟨_, table, hroute, htable, rfl, ?_⟩
  intro request values hmethod hmatched
  exact dispatch_eq_of_head htable ⟨hmethod, hmatched, by simp [hheaders, SortedMap.empty]⟩

theorem exists_dispatch_of_extract {book : RuleBook} {declaration : Declaration} {action : Action}
    {template : Template} (haction : declaration.action = some action)
    (hheaders : declaration.headers = .empty)
    (hcompile : Template.compile book declaration.path declaration.host = .ok template)
    {request : Request} (hmethod : request.method ∈ declaration.methods)
    {values : List (String × Value)} (hmatched : template.extract request.subject = .matched values) :
    ∃ route table, declaration.compile book = .ok route ∧ ofRoutes [route] = .ok table
      ∧ route.template = template ∧ table.dispatch request = .ok ⟨0, route, values⟩ := by
  obtain ⟨route, table, hroute, htable, htemplate, hdispatch⟩ :=
    exists_table_of_compile haction hheaders hcompile
  exact ⟨route, table, hroute, htable, htemplate, hdispatch request values hmethod hmatched⟩

theorem regenerates_dispatch_segments : ∃ route table,
    ((Declaration.ofPath ["GET"] "/a/:x[/:y]").dispatchingTo (.handler "show")).compile .standard
      = .ok route
    ∧ ofRoutes [route] = .ok table
    ∧ table.dispatch ⟨"GET", "h", "//a/1/2", []⟩
      = .ok ⟨0, route, [("x", .string "1"), ("y", .string "2")]⟩
    ∧ route.template.Regenerates [("x", .string "1"), ("y", .string "2")] := by
  obtain ⟨template, hcompile, -, -, hmatched⟩ := Template.exists_extract_segments
  obtain ⟨route, table, hroute, htable, -, hdispatch⟩ := @exists_dispatch_of_extract .standard
    ((Declaration.ofPath ["GET"] "/a/:x[/:y]").dispatchingTo (.handler "show")) _ template rfl rfl
    hcompile ⟨"GET", "h", "//a/1/2", []⟩ (by decide) _ hmatched
  have hroutes : ∀ other ∈ [route], ∃ (book : RuleBook) (declaration : Declaration),
      declaration.compile book = .ok other :=
    List.forall_mem_singleton.2 ⟨_, _, hroute⟩
  exact ⟨route, table, hroute, htable, hdispatch, regenerates_dispatch hroutes htable hdispatch⟩

/-- A number in a host is not always written as it was read. -/
theorem dispatch_number_in_host : ∃ route table,
    (((Declaration.ofPath ["GET"] "/b").dispatchingTo (.handler "show")).onHost ":x(float).b").compile
      .standard = .ok route
    ∧ ofRoutes [route] = .ok table
    ∧ table.dispatch ⟨"GET", "1e-1.b", "/b", []⟩
      = .ok ⟨0, route, [("x", .float ⟨0x3FB999999999999A⟩)]⟩
    ∧ route.template.buildHost [("x", .float ⟨0x3FB999999999999A⟩)]
      = .error (.unfitValue "x" "0.1") := by
  obtain ⟨template, hcompile, hhost, hmatched⟩ := Template.exists_extract_number
  obtain ⟨route, table, hroute, htable, rfl, hdispatch⟩ := @exists_dispatch_of_extract .standard
    (((Declaration.ofPath ["GET"] "/b").dispatchingTo (.handler "show")).onHost ":x(float).b") _ template
    rfl rfl hcompile ⟨"GET", "1e-1.b", "/b", []⟩ (by decide) _ hmatched
  refine ⟨route, table, hroute, htable, hdispatch, ?_⟩
  rw [Template.buildHost, hhost]
  decide +kernel

end RouteTable

end UriRouting
