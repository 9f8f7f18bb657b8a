import GoOutline.Config.Basic
import GoOutline.Project.Basic
import GoOutline.Proofs.Json.Values

/-!
# Records read back from their text

Every record is read back from the text that is written of it, in either layout. The text of a value
is read back with its members in key order, so it is enough that each record is found again in its
value with the members sorted: a field is found under its key, whatever the order.

## Main definitions

* `Outline.IsStorable`, `ProjectOutline.IsStorable`: the record holds nothing that JSON text cannot
  carry

## Main results

* `Outline.ofJson?_sorted` and the like: a record is found again in its value with sorted members
* `ofJson?_parse?_render`: outlines, failures, projects and configurations are read back from their
  text
-/

namespace GoOutline

open Json Json.Field

namespace Json

section

variable {α : Type} {members : List (String × Json)} {key : String}

/-! ## Values whose parts can be read back -/

@[simp] theorem isReadable_bool (b : Bool) : (Json.bool b).IsReadable := .bool b

@[simp] theorem isReadable_string (s : String) : (string s).IsReadable := .string s

@[simp] theorem isReadable_orNull (s : Option String) : (orNull s).IsReadable := by
  cases s with
  | none => exact .null
  | some s => exact .string s

/-- A number that is no double is read back when it fits 64 bits. -/
theorem isReadable_nat_iff {n : Nat} : (nat n).IsReadable ↔ n < 0x10000000000000000 := by
  constructor
  · rintro (_ | _ | ⟨-, hn⟩ | _ | _ | _)
    omega
  · intro hn
    exact .number ⟨by omega, by omega⟩

@[simp] theorem isReadable_array_iff {items : List Json} :
    (array items).IsReadable ↔ ∀ v ∈ items, v.IsReadable := by
  constructor
  · rintro (_ | _ | _ | _ | h | _)
    exact h
  · exact .array

theorem isReadable_object_iff :
    (object members).IsReadable ↔ ∀ m ∈ members, m.2.IsReadable := by
  constructor
  · rintro (_ | _ | _ | _ | _ | h)
    exact h
  · exact .object

@[simp] theorem isReadable_object_nil : (object []).IsReadable :=
  isReadable_object_iff.2 (List.forall_mem_nil _)

@[simp] theorem isReadable_object_cons {v : Json} :
    (object ((key, v) :: members)).IsReadable ↔ v.IsReadable ∧ (object members).IsReadable := by
  simp only [isReadable_object_iff, List.forall_mem_cons]

/-- A member that may be left out is read back either way. -/
@[simp] theorem isReadable_object_memberOf (s : Option String) :
    (object (memberOf key s ++ members)).IsReadable ↔ (object members).IsReadable := by
  cases s <;> simp

/-! ## Fields of sorted objects -/

@[simp] theorem sorted_nat (n : Nat) : sorted (.nat n) = .nat n := sorted_number _

@[simp] theorem sorted_float (x : Float) : sorted (.float x) = .float x := sorted_number _

/-- What may be null has no members to sort. -/
@[simp] theorem sorted_orNull (s : Option String) : sorted (orNull s) = orNull s := by
  cases s <;> simp

/-- A count that can be read back fits 64 bits. -/
theorem count?_nat {n : Nat} (h : (nat n).IsReadable) : count? (.nat n) = some n := by
  have hlimit : countLimit = 0x10000000000000000 := rfl
  have hn := isReadable_nat_iff.1 h
  rw [Json.nat, count?, Int.toNat_natCast, if_pos]
  rw [Bool.and_eq_true, decide_eq_true_eq, decide_eq_true_eq, hlimit]
  exact ⟨Int.natCast_nonneg n, hn⟩

/-- Sorting members with different keys does not change what is found under a key. -/
@[simp] theorem required_sorted (hkeys : (members.map (·.1)).Nodup) (read? : Json → Option α) :
    required read? key (sorted (.object members)) =
      (members.lookup key).bind fun v => read? v.sorted := by
  rw [required, field?_sorted hkeys, Option.bind_map]
  rfl

@[simp] theorem textOrNone?_orNull (s : Option String) :
    textOrNone? (some (orNull s)) = some s := by
  cases s <;> rfl

/-- A member that may be left out is found again among the sorted members. -/
@[simp] theorem optionalText_sorted (hkeys : (members.map (·.1)).Nodup) :
    optionalText key (sorted (.object members)) =
      textOrNone? ((members.lookup key).map sorted) := by
  rw [optionalText, field?_sorted hkeys]

/-- A list is found again when each of its items is. -/
theorem mapM_sorted {toJson : α → Json} {ofJson? : Json → Option α} {xs : List α}
    (h : ∀ x ∈ xs, ofJson? (toJson x).sorted = some x) :
    xs.mapM (ofJson? ∘ sorted ∘ toJson) = some xs := by
  induction xs with
  | nil => rfl
  | cons x rest ih =>
    obtain ⟨hx, hrest⟩ := List.forall_mem_cons.1 h
    rw [List.mapM_cons, ih hrest, Function.comp_apply, Function.comp_apply, hx]
    rfl

end

end Json

/-! ## Symbols -/

/-- Locations are found again in their values with sorted members. -/
theorem Text.Location.ofJson?_sorted {l : Text.Location} (h : l.toJson.IsReadable) :
    Text.Location.ofJson? l.toJson.sorted = some l := by
  rw [Text.Location.toJson] at h ⊢
  simp only [isReadable_object_cons] at h
  rw [Text.Location.ofJson?]
  simp [count?_nat, h]

/-- So are parameters. -/
theorem Parameter.ofJson?_sorted (p : Parameter) :
    Parameter.ofJson? p.toJson.sorted = some p := by
  rw [Parameter.toJson, Parameter.ofJson?]
  simp

/-- So are properties, with or without documentation. -/
theorem Property.ofJson?_sorted {p : Property} (h : p.toJson.IsReadable) :
    Property.ofJson? p.toJson.sorted = some p := by
  obtain ⟨name, type, documentation, location, isExported⟩ := p
  have hlocation : location.toJson.IsReadable := by simpa [Property.toJson] using h
  rw [Property.toJson, Property.ofJson?]
  cases documentation <;> simp [Text.Location.ofJson?_sorted hlocation]

/-- So are methods, with their parameters. -/
theorem Method.ofJson?_sorted {m : Method} (h : m.toJson.IsReadable) :
    Method.ofJson? m.toJson.sorted = some m := by
  obtain ⟨name, documentation, location, isExported, parameters, returnType, receiverType⟩ := m
  obtain ⟨hlocation, -⟩ := by simpa [Method.toJson] using h
  have hparameters := mapM_sorted fun p (_ : p ∈ parameters) => p.ofJson?_sorted
  rw [Method.toJson, Method.ofJson?]
  cases documentation <;> cases receiverType <;>
    simp [Text.Location.ofJson?_sorted hlocation, hparameters]

/-- So are functions. -/
theorem Function.ofJson?_sorted {f : Function} (h : f.toJson.IsReadable) :
    Function.ofJson? f.toJson.sorted = some f := by
  obtain ⟨name, documentation, location, isExported, parameters, returnType⟩ := f
  obtain ⟨hlocation, -⟩ := by simpa [Function.toJson] using h
  have hparameters := mapM_sorted fun p (_ : p ∈ parameters) => p.ofJson?_sorted
  rw [Function.toJson, Function.ofJson?]
  cases documentation <;> simp [Text.Location.ofJson?_sorted hlocation, hparameters]

/-- So are structs, with their properties and methods. -/
theorem Struct.ofJson?_sorted {s : Struct} (h : s.toJson.IsReadable) :
    Struct.ofJson? s.toJson.sorted = some s := by
  obtain ⟨name, documentation, location, isExported, properties, methods⟩ := s
  obtain ⟨hlocation, hproperties, hmethods⟩ := by simpa [Struct.toJson] using h
  have hproperties := mapM_sorted fun p hp => Property.ofJson?_sorted (hproperties p hp)
  have hmethods := mapM_sorted fun m hm => Method.ofJson?_sorted (hmethods m hm)
  rw [Struct.toJson, Struct.ofJson?]
  cases documentation <;> simp [Text.Location.ofJson?_sorted hlocation, hproperties, hmethods]

/-- So are interfaces. -/
theorem Interface.ofJson?_sorted {i : Interface} (h : i.toJson.IsReadable) :
    Interface.ofJson? i.toJson.sorted = some i := by
  obtain ⟨name, documentation, location, isExported, methods⟩ := i
  obtain ⟨hlocation, hmethods⟩ := by simpa [Interface.toJson] using h
  have hmethods := mapM_sorted fun m hm => Method.ofJson?_sorted (hmethods m hm)
  rw [Interface.toJson, Interface.ofJson?]
  cases documentation <;> simp [Text.Location.ofJson?_sorted hlocation, hmethods]

theorem Import.ofJson?_sorted (i : Import) : Import.ofJson? i.toJson.sorted = some i := by
  have hnames : i.importedNames.mapM (text? ∘ sorted ∘ string) = some i.importedNames :=
    mapM_sorted fun s _ => by simp
  rw [Import.toJson, Import.ofJson?]
  simp [hnames]

theorem Coverage.ofJson?_sorted {c : Coverage} (h : c.toJson.IsReadable) :
    Coverage.ofJson? c.toJson.sorted = some c := by
  rw [Coverage.toJson] at h ⊢
  simp only [isReadable_object_cons] at h
  rw [Coverage.ofJson?]
  simp [count?_nat, h]

/-! ## Files, failures, projects and configurations -/

/-- **An outline that JSON text can carry**: every number in it can be read back, and the values
that it takes over as they are have their members in key order. -/
structure Outline.IsStorable (o : Outline) : Prop where
  readable : o.toJson.IsReadable
  ordered : ∀ v ∈ o.enums ++ o.typeAliases ++ o.exports, v.IsOrdered

/-- Values in order are taken over as they are. -/
theorem mapM_some_sorted {vs : List Json} (h : ∀ v ∈ vs, v.IsOrdered) :
    vs.mapM (some ∘ sorted) = some vs := by
  have hid : ∀ v ∈ vs, some (sorted (id v)) = some v := by
    intro v hv
    rw [id, sorted_of_isOrdered (h v hv)]
  exact mapM_sorted hid

/-- **An outline** is found again, with everything in it. -/
theorem Outline.ofJson?_sorted {o : Outline} (h : o.IsStorable) :
    Outline.ofJson? o.toJson.sorted = some o := by
  obtain ⟨path, classes, functions, interfaces, enums, typeAliases, imports, exports,
    documentation⟩ := o
  obtain ⟨hclasses, hfunctions, hinterfaces, -, -, -, -, hdocumentation⟩ := by
    simpa [Outline.toJson] using h.readable
  obtain ⟨⟨henums, haliases⟩, hexports⟩ := by
    simpa only [List.forall_mem_append] using h.ordered
  have hclasses := mapM_sorted fun s hs => Struct.ofJson?_sorted (hclasses s hs)
  have hfunctions := mapM_sorted fun f hf => Function.ofJson?_sorted (hfunctions f hf)
  have hinterfaces := mapM_sorted fun i hi => Interface.ofJson?_sorted (hinterfaces i hi)
  have himports := mapM_sorted fun i (_ : i ∈ imports) => i.ofJson?_sorted
  rw [Outline.toJson, Outline.ofJson?]
  simp [hclasses, hfunctions, hinterfaces, mapM_some_sorted henums, mapM_some_sorted haliases,
    himports, mapM_some_sorted hexports, Coverage.ofJson?_sorted hdocumentation]

/-- A failure is found again, with or without a path. -/
theorem FailedOutline.ofJson?_sorted (f : FailedOutline) :
    FailedOutline.ofJson? f.toJson.sorted = some f := by
  obtain ⟨error, path⟩ := f
  rw [FailedOutline.toJson, FailedOutline.ofJson?]
  cases path <;> simp

theorem Summary.ofJson?_sorted {s : Summary} (h : s.toJson.IsReadable) :
    Summary.ofJson? s.toJson.sorted = some s := by
  rw [Summary.toJson] at h ⊢
  simp only [isReadable_object_cons] at h
  rw [Summary.ofJson?]
  simp [count?_nat, h]

/-- **A project that JSON text can carry**: its totals can be read back, and its files can be
carried. -/
structure ProjectOutline.IsStorable (p : ProjectOutline) : Prop where
  readable : p.summary.toJson.IsReadable
  files : ∀ o ∈ p.files, o.IsStorable

/-- **The outline of a project** is found again. -/
theorem ProjectOutline.ofJson?_sorted {p : ProjectOutline} (h : p.IsStorable) :
    ProjectOutline.ofJson? p.toJson.sorted = some p := by
  have hfiles := mapM_sorted fun o ho => Outline.ofJson?_sorted (h.files o ho)
  rw [ProjectOutline.toJson, ProjectOutline.ofJson?]
  simp [hfiles, Summary.ofJson?_sorted h.readable]

/-- What can be stored can be read back. -/
theorem ProjectOutline.IsStorable.isReadable {p : ProjectOutline} (h : p.IsStorable) :
    p.toJson.IsReadable := by
  simpa [ProjectOutline.toJson, h.readable] using fun o ho => (h.files o ho).readable

theorem FailedOutline.isReadable (f : FailedOutline) : f.toJson.IsReadable := by
  obtain ⟨error, _ | path⟩ := f <;> simp [FailedOutline.toJson]

/-- A configuration has no numbers, so it can always be read back. -/
theorem Config.isReadable (c : Config) : c.toJson.IsReadable := by simp [Config.toJson]

theorem expectList_sorted (names : List String) :
    expectList expectText (sorted (.array (names.map string))) = .ok names := by
  rw [sorted_array, expectList, List.map_map]
  induction names with
  | nil => rfl
  | cons name rest ih =>
    rw [List.map_cons, List.mapM_cons, ih, Function.comp_apply, sorted_string]
    rfl

/-- A setting that is written is found again among the sorted members. -/
theorem settingOr_sorted {α : Type} {members : List (String × Json)} {key : String} {v : Json}
    (hkeys : (members.map (·.1)).Nodup) (hv : members.lookup key = some v)
    (read : Json → Except Mismatch α) (default : α) :
    Config.settingOr read default key (sorted (.object members)) = read v.sorted := by
  rw [Config.settingOr, field?_sorted hkeys, hv]
  rfl

/-- **A configuration** is found again. -/
theorem Config.ofJson_sorted (c : Config) : Config.ofJson c.toJson.sorted = .ok c := by
  obtain ⟨members, hmembers⟩ : ∃ members, c.toJson.sorted = .object members :=
    ⟨_, sorted_object _⟩
  rw [hmembers, Config.ofJson, ← hmembers, Config.toJson]
  rw [settingOr_sorted (by simp) (by simp; rfl), settingOr_sorted (by simp) (by simp; rfl),
    settingOr_sorted (by simp) (by simp; rfl), settingOr_sorted (by simp) (by simp; rfl),
    expectList_sorted]
  simp only [sorted_bool]
  rfl

/-- **Every record is read back from its text**, in either layout. -/
theorem ofJson?_parse?_render (pretty : Bool) :
    (∀ o : Outline, o.IsStorable →
      (parse? (o.toJson.render pretty)).bind Outline.ofJson? = some o) ∧
    (∀ f : FailedOutline, (parse? (f.toJson.render pretty)).bind FailedOutline.ofJson? = some f) ∧
    (∀ p : ProjectOutline, p.IsStorable →
      (parse? (p.toJson.render pretty)).bind ProjectOutline.ofJson? = some p) ∧
    ∀ c : Config, (parse? (c.toJson.render pretty)).map Config.ofJson = some (.ok c) := by
  refine ⟨fun o ho => ?_, fun f => ?_, fun p hp => ?_, fun c => ?_⟩
  · rw [parse?_render ho.readable, Option.bind_some, Outline.ofJson?_sorted ho]
  · rw [parse?_render f.isReadable, Option.bind_some, f.ofJson?_sorted]
  · rw [parse?_render hp.isReadable, Option.bind_some, ProjectOutline.ofJson?_sorted hp]
  · rw [parse?_render c.isReadable, Option.map_some, c.ofJson_sorted]

/-- A file with a documented method and an enum that holds values of every kind. -/
def sampleOutline : Outline where
  path := "shapes/\"point\".go"
  classes := [{
    name := "Point", documentation := none, location := ⟨3, 6, 3, 20⟩, isExported := true,
    properties := [⟨"x", some "int", none, ⟨4, 2, 4, 7⟩, false⟩],
    methods := [{
      name := "Norm", documentation := some "Norm is the\n\tlength.", location := ⟨8, 1, 8, 40⟩,
      isExported := true, parameters := [{ name := "_", type := none }], returnType := none,
      receiverType := some "Point" }] }]
  functions := []
  interfaces := []
  enums := [.object [("a", .array [.null, .number (.int (-7))]),
    ("b", .object [("é", .string "\u0001")])]]
  typeAliases := []
  imports := [⟨["_"], "embed"⟩]
  exports := []
  documentation := ⟨true, 1, 2, 50.0⟩

theorem isReadable_float_fifty : (Json.float 50.0).IsReadable := by
  have htext : Text.floatFormat.render 50.0 = "50.0".toList := by decide +kernel
  refine .number (n := .float 50.0) ?_
  rw [Number.IsReadable, htext]
  rfl

theorem sampleOutline_isStorable : sampleOutline.IsStorable where
  readable := by
    have hint : (number (.int (-7))).IsReadable := .number ⟨by decide, by decide⟩
    simp [sampleOutline, Outline.toJson, Struct.toJson, Property.toJson, Method.toJson,
      Parameter.toJson, Import.toJson, Coverage.toJson, Text.Location.toJson, isReadable_nat_iff,
      isReadable_float_fifty, hint, IsReadable.null]
  ordered := by
    have harray : (array [null, number (.int (-7))]).IsOrdered :=
      .array (by simpa using ⟨.null, .number _⟩)
    have hobject : (object [("é", string "\u0001")]).IsOrdered :=
      .object (by simp) (by simpa using .string _)
    have henum : (object [("a", array [null, number (.int (-7))]),
        ("b", object [("é", string "\u0001")])]).IsOrdered :=
      .object (by decide) (by simpa using ⟨harray, hobject⟩)
    simpa [sampleOutline] using henum

/-- A file and the project that consists of it are read back from indented text. -/
theorem ofJson?_parse?_render_sampleOutline :
    (sampleOutline.IsStorable ∧ (ProjectOutline.ofOutlines [sampleOutline]).IsStorable) ∧
    (parse? (sampleOutline.toJson.render true)).bind Outline.ofJson? = some sampleOutline ∧
    (parse? ((ProjectOutline.ofOutlines [sampleOutline]).toJson.render true)).bind
      ProjectOutline.ofJson? = some (ProjectOutline.ofOutlines [sampleOutline]) := by
  obtain ⟨houtline, -, hproject, -⟩ := ofJson?_parse?_render true
  have ho := sampleOutline_isStorable
  have hcoverage : Doc.percentage 1 2 = 50.0 := rfl
  have hp : (ProjectOutline.ofOutlines [sampleOutline]).IsStorable := by
    constructor
    · simp [ProjectOutline.ofOutlines, Summary.toJson, Summary.ofOutlines, Summary.total,
        sampleOutline, hcoverage, isReadable_float_fifty, isReadable_nat_iff]
    · simpa [ProjectOutline.ofOutlines] using ho
  exact ⟨⟨ho, hp⟩, houtline _ ho, hproject _ hp⟩

end GoOutline
