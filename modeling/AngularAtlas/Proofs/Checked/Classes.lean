import AngularAtlas.Proofs.Checked.Properties
import AngularAtlas.Proofs.Source.Matches
import AngularAtlas.Proofs.Text.Comment

namespace AngularAtlas.Checked

open Text Source

def findSection (s key : List Char) : Checked ArraySection :=
  match findFirst? (sectionStart? key) s with
  | none => .ok .missing
  | some (_, rest) => do
    match ← insideMatch s rest with
    | none => return .unclosed
    | some body => return .found body

def sectionElements (metadata : List Char) (key : MetadataKey) :
    ExceptT MetadataError Checked (List (List Char)) := do
  match ← findSection metadata key.name.toList with
  | .missing => return []
  | .unclosed => throw (.unclosed key)
  | .found body => elements body

def addProvision (p : Provision) (property : List Char × List Char) : Checked Provision := do
  let (key, value) := property
  if key = "provide".toList then return { p with token := some (← unquote value) }
  else if sourceKeys.contains key then return { p with source := some (← unquote value) }
  else return p

def formatProvider (provider : List Char) : Checked (List Char) := do
  match ← ((← objectProperties provider).getD []).foldlM addProvision {} with
  | ⟨some token, some source⟩ => return token ++ " provided by ".toList ++ source
  | _ => return trim provider

def ofMetadata (metadata : List Char) : ExceptT MetadataError Checked NgModule := do
  let read := sectionElements (removeComments metadata)
  let imports ← read .imports
  let exports ← read .exports
  let declarations ← read .declarations
  let entryComponents ← read .entryComponents
  let providers ← read .providers
  let formatted ← (providers.mapM formatProvider : Checked _)
  let bootstrap ← read .bootstrap
  let imports := imports.map String.ofList
  return {
    imports
    exports := exports.map String.ofList
    declarations := declarations.map String.ofList
    entryComponents := entryComponents.map String.ofList
    providers := formatted.map String.ofList
    bootstrap := bootstrap.map String.ofList
    isRouting := imports.any configuresRouter }

def typeName (declared : List Char) : Checked (Option (List Char)) := do
  let s := (declared.takeWhile (· != '=')).takeWhile (· != '|')
  let name := trim (dropArraySuffix (← stripGenerics s))
  return if name ≠ [] ∧ (name.splitOn '.').all isIdentifier then some name else none

def parameterDependency (parameter : List Char) : Checked (Option (List Char)) :=
  match findFirst? injectDecorator? parameter with
  | some (token, _) => .ok (some token)
  | none => do
    match (← colons parameter).getLast? with
    | none => return none
    | some colon => typeName (← sliceFrom parameter (colon + 1))

def constructorDependencies (body : List Char) : Checked (List (List Char)) :=
  match findFirst? constructorStart? body with
  | none => .ok []
  | some (_, rest) => do
    match ← insideMatch body rest with
    | none => return []
    | some parameters =>
      return (← (← elements parameters).filterMapM parameterDependency).eraseDups

/-- The name of the member behind a decorator, if the decorator has the name asked for. A
decorator is found with the text from its bracket on. -/
def decoratedMember (decorator : String) (body : List Char) (found : MemberKind × List Char) :
    Checked (Option (List Char)) := do
  if found.1.decorator ≠ decorator then return none
  match ← balancedEnd body (← subtract (matchEnd body found.2) 1) with
  | none => return none
  | some close => return memberName? (skipBlanks (← sliceFrom body (close + 1)))

def decoratedMembers (decorator : String) (body : List Char) : Checked (List (List Char)) := do
  return (← (findAll memberDecorator? body).filterMapM (decoratedMember decorator body)).eraseDups

def members (body : List Char) (kind : MemberKind) : Checked (List String) := do
  let decorated ← decoratedMembers kind.decorator body
  return (decorated ++ signalMembers kind body).eraseDups.map String.ofList

def toClass (content : List Char) (file : String) (decorator : Decorator) (found : Finding) :
    Checked DecoratedClass := do
  let metadata := removeComments (found.metadata.getD [])
  let body := removeComments ((← classBody content (offsetOf content found.rest)).getD [])
  let injected ← constructorDependencies body
  return {
    name := String.ofList found.name
    file
    decorator
    selector := quotedProperty? "selector" metadata
    templateUrl := quotedProperty? "templateUrl" metadata
    dependencies := (injected ++ injectCalls body).eraseDups.map String.ofList
    inputs := ← members body .input
    outputs := ← members body .output
    viewChild := ← members body .viewChild
    viewChildren := ← members body .viewChildren
    contentChild := ← members body .contentChild
    contentChildren := ← members body .contentChildren }

def toModule (file : String) (found : Finding) : Checked (Except Issue NgModule) := do
  let name := String.ofList found.name
  match ← (ofMetadata (found.metadata.getD [])).run with
  | .ok m =>
    return .ok { m with
      name
      file
      isRouting := m.isRouting || "RoutingModule".toList.isSuffixOf found.name }
  | .error e => return .error ⟨file, "ModuleName: " ++ name ++ "\nException: " ++ e.message⟩

def parsedFile (file : String) (content : List Char) : Checked ParsedFile := do
  let modules ← (findings .ngModule content).mapM (toModule file)
  let classes ← Decorator.ofClasses.mapM fun decorator =>
    (findings decorator content).mapM (toClass content file decorator)
  return {
    modules := modules.filterMap fun m => m.toOption
    classes := classes.flatten
    issues := modules.filterMap fun
      | .ok _ => none
      | .error issue => some issue }

variable {s rest body content metadata provider : List Char} {key : MetadataKey} {found : Finding}

theorem insideMatch_of_sectionStart? {key : List Char} {place : Unit × List Char}
    (find : findFirst? (sectionStart? key) s = some place) :
    insideMatch s place.2 = .ok ((balanced? place.2).map (·.1)) ∧ place.2 <:+ s := by
  obtain ⟨before, t, suffix, read⟩ := exists_of_findFirst? find
  obtain ⟨head, tail⟩ := opens_of_sectionStart? read
  exact ⟨insideMatch_eq head (tail.trans suffix) (by decide), tail.trans suffix⟩

theorem findSection_eq (s key : List Char) :
    findSection s key = .ok (Source.findSection s key) := by
  rw [findSection, Source.findSection]
  cases find : findFirst? (sectionStart? key) s with
  | none => rfl
  | some place =>
    obtain ⟨inside, -⟩ := insideMatch_of_sectionStart? find
    simp only [inside, ok_bind]
    cases balanced? place.2 <;> rfl

theorem body_sublist {key : List Char} (h : Source.findSection s key = .found body) :
    body.Sublist s := by
  rw [Source.findSection] at h
  cases find : findFirst? (sectionStart? key) s with
  | none =>
    rw [find] at h
    cases h
  | some place =>
    obtain ⟨-, suffix⟩ := insideMatch_of_sectionStart? find
    simp only [find] at h
    cases pair : balanced? place.2 with
    | none =>
      simp only [pair] at h
      cases h
    | some p =>
      simp only [pair] at h
      obtain rfl := ArraySection.found.inj h
      exact (inside_sublist pair).trans suffix.sublist

theorem sectionElements_eq (few : FewBrackets s) (key : MetadataKey) :
    (sectionElements s key).run = .ok (Source.sectionElements s key) := by
  rw [sectionElements, findSection_eq, Source.sectionElements]
  cases found : Source.findSection s key.name.toList with
  | missing => rfl
  | unclosed => rfl
  | found body =>
    have inside := elements_eq (few.of_sublist (body_sublist found))
    change (liftM (elements body) : ExceptT MetadataError Checked _).run = _
    rw [inside]
    rfl

theorem FewBrackets.of_mem_sectionElements {items : List (List Char)} (few : FewBrackets s)
    (h : Source.sectionElements s key = .ok items) (mem : provider ∈ items) :
    FewBrackets provider := by
  rw [Source.sectionElements] at h
  cases found : Source.findSection s key.name.toList with
  | missing =>
    rw [found] at h
    obtain rfl := Except.ok.inj h
    cases mem
  | unclosed =>
    rw [found] at h
    cases h
  | found body =>
    rw [found] at h
    obtain rfl := Except.ok.inj h
    exact (few.of_sublist (body_sublist found)).of_mem_elements mem

theorem addProvision_eq (p : Provision) (property : List Char × List Char) :
    addProvision p property = .ok (p.add property) := by
  obtain ⟨key, value⟩ := property
  simp only [addProvision, Provision.add, unquote_eq, ok_bind]
  split_ifs <;> rfl

theorem formatProvider_eq (few : FewBrackets provider) :
    formatProvider provider = .ok (Source.formatProvider provider) := by
  rw [formatProvider, Source.formatProvider, objectProperties_eq few, ok_bind,
    foldlM_eq_ok addProvision_eq, ok_bind]
  obtain ⟨token, source⟩ := ((objectProperties? provider).getD []).foldl Provision.add {}
  cases token <;> cases source <;> rfl

theorem ofMetadata_eq (few : FewBrackets metadata) :
    (ofMetadata metadata).run = .ok (NgModule.ofMetadata metadata) := by
  have fewLeft := few.of_sublist (removeComments_sublist metadata)
  have read := sectionElements_eq fewLeft
  refine run_bind_eq_ok (read .imports) fun imports _ => ?_
  refine run_bind_eq_ok (read .exports) fun exports _ => ?_
  refine run_bind_eq_ok (read .declarations) fun declarations _ => ?_
  refine run_bind_eq_ok (read .entryComponents) fun entryComponents _ => ?_
  refine run_bind_eq_ok (read .providers) fun providers found => ?_
  have each : ∀ p ∈ providers, formatProvider p = .ok (Source.formatProvider p) :=
    fun p mem => formatProvider_eq (fewLeft.of_mem_sectionElements found mem)
  rw [mapM_eq_ok each, run_lift_bind]
  refine run_bind_eq_ok (read .bootstrap) fun bootstrap _ => ?_
  rw [List.map_map]
  rfl

theorem typeName_eq (declared : List Char) : typeName declared = .ok (typeName? declared) := by
  rw [typeName, stripGenerics_eq, ok_bind]
  rfl

theorem parameterDependency_eq {parameter : List Char} (few : FewBrackets parameter) :
    parameterDependency parameter = .ok (parameterDependency? parameter) := by
  rw [parameterDependency, parameterDependency?]
  cases findFirst? injectDecorator? parameter with
  | some => rfl
  | none =>
    have last : (colonOffsets parameter).getLast? =
        (colonSplits 0 parameter).getLast?.map fun p => utf8Length p.1 := List.getLast?_map
    simp only [colons_eq few, ok_bind, last]
    cases found : (colonSplits 0 parameter).getLast? with
    | none => rfl
    | some sides =>
      obtain ⟨front, declared⟩ := sides
      have parts := append_of_mem_colonSplits (List.mem_of_getLast? found)
      simp only [Option.map_some, sliceFrom_colon parts, ok_bind, typeName_eq]
      rfl

theorem constructorDependencies_eq (few : FewBrackets body) :
    constructorDependencies body = .ok (Source.constructorDependencies body) := by
  rw [constructorDependencies, Source.constructorDependencies]
  cases find : findFirst? constructorStart? body with
  | none => rfl
  | some place =>
    obtain ⟨_, rest⟩ := place
    obtain ⟨before, t, suffix, read⟩ := exists_of_findFirst? find
    obtain ⟨head, tail⟩ := opens_of_constructorStart? read
    simp only [insideMatch_eq head (tail.trans suffix) (by decide), ok_bind, Option.bind_some]
    cases pair : balanced? rest with
    | none => rfl
    | some p =>
      have fewInside := few.of_sublist
        ((inside_sublist pair).trans (tail.trans suffix).sublist)
      have each : ∀ parameter ∈ Source.elements p.1,
          parameterDependency parameter = .ok (parameterDependency? parameter) :=
        fun parameter mem => parameterDependency_eq (fewInside.of_mem_elements mem)
      simp only [Option.map_some, elements_eq fewInside, ok_bind, filterMapM_eq_ok each]
      rfl

theorem decoratedMember_eq {decorator : String} {place : MemberKind × List Char}
    (mem : place ∈ findAll memberDecorator? body) :
    decoratedMember decorator body place = .ok (if place.1.decorator = decorator then
      (balanced? place.2).bind fun p => memberName? (skipBlanks p.2) else none) := by
  obtain ⟨kind, start⟩ := place
  obtain ⟨before, t, rest, suffix, read⟩ := exists_of_mem_findAll mem
  obtain ⟨head, tail⟩ := opens_of_memberDecorator? read
  have bracket := subtract_matchEnd head (tail.trans suffix) (by decide)
  rw [decoratedMember]
  by_cases wanted : kind.decorator = decorator
  · simp only [wanted, ne_eq, not_true_eq_false, if_false, if_true, bracket, ok_bind]
    obtain ⟨a, rfl⟩ := tail.trans suffix
    rw [offsetOf_append, balancedEnd_append, ok_bind]
    cases pair : balanced? start with
    | none => rfl
    | some p =>
      simp only [Option.map_some, sliceFrom_behind pair, ok_bind]
      rfl
  · simp only [wanted, ne_eq, not_false_eq_true, if_true, if_false]
    rfl

theorem ofDecorator?_eq_some_iff {decorator : String} {kind : MemberKind} :
    MemberKind.ofDecorator? decorator = some kind ↔ kind.decorator = decorator := by
  constructor
  · intro found
    simpa using List.find?_some found
  · rintro rfl
    cases kind <;> rfl

theorem decoratedMembers_eq (decorator : String) (body : List Char) :
    decoratedMembers decorator body =
      .ok ((MemberKind.ofDecorator? decorator).elim [] (Source.decoratedMembers · body)) := by
  rw [decoratedMembers, filterMapM_eq_ok fun place mem => decoratedMember_eq mem, ok_bind]
  cases named : MemberKind.ofDecorator? decorator with
  | none =>
    have other : ∀ kind : MemberKind, kind.decorator ≠ decorator := by
      intro kind same
      rw [ofDecorator?_eq_some_iff.2 same] at named
      cases named
    simp only [if_neg (other _), List.filterMap_none]
    rfl
  | some kind =>
    have same : ∀ k : MemberKind, k.decorator = decorator ↔ k = kind := by
      intro k
      rw [← ofDecorator?_eq_some_iff, named, Option.some.injEq, eq_comm]
    simp only [same]
    rfl

theorem members_eq (body : List Char) (kind : MemberKind) :
    members body kind = .ok ((Source.members kind body).map String.ofList) := by
  rw [members, decoratedMembers_eq, ofDecorator?_eq_some_iff.2 rfl]
  rfl

theorem classBody_sublist (h : classBody? s = some body) : body.Sublist s := by
  obtain ⟨p, pair, rfl⟩ := Option.map_eq_some_iff.1 h
  exact (inside_sublist pair).trans (List.dropWhile_sublist _)

theorem toClass_eq (few : FewBrackets content) (file : String) (decorator : Decorator)
    (suffix : found.rest <:+ content) :
    toClass content file decorator found = .ok (found.toClass file decorator) := by
  have part : ((classBody? found.rest).getD []).Sublist content := by
    cases inside : classBody? found.rest with
    | none => exact List.nil_sublist _
    | some body => exact (classBody_sublist inside).trans suffix.sublist
  have fewBody := few.of_sublist ((removeComments_sublist _).trans part)
  rw [toClass, classBody_eq, from?_offsetOf suffix, ok_bind, Option.bind_some]
  simp only [constructorDependencies_eq fewBody, members_eq, ok_bind]
  rfl

theorem toModule_eq (few : FewBrackets content) (file : String) (isIn : found.IsIn content) :
    toModule file found = .ok (found.toModule file) := by
  have part : (found.metadata.getD []).Sublist content := by
    cases taken : found.metadata with
    | none => exact List.nil_sublist _
    | some metadata => exact isIn.metadata metadata taken
  rw [toModule, ofMetadata_eq (few.of_sublist part), ok_bind, Finding.toModule]
  cases NgModule.ofMetadata (found.metadata.getD []) <;> rfl

theorem isIn_of_mem_findings {decorator : Decorator} (mem : found ∈ findings decorator content) :
    found.IsIn content := by
  obtain ⟨before, t, rest, suffix, read⟩ := exists_of_mem_findAll mem
  exact (isIn_of_decoratedHead? read).of_suffix suffix

theorem parsedFile_eq (few : FewBrackets content) (file : String) :
    parsedFile file content = .ok (ParsedFile.ofText file content) := by
  have modules : (findings .ngModule content).mapM (toModule file) =
      .ok ((findings .ngModule content).map (·.toModule file)) :=
    mapM_eq_ok fun found mem => toModule_eq few file (isIn_of_mem_findings mem)
  have classes : ∀ decorator, (findings decorator content).mapM (toClass content file decorator) =
      .ok ((findings decorator content).map (·.toClass file decorator)) := fun decorator =>
    mapM_eq_ok fun found mem => toClass_eq few file decorator (isIn_of_mem_findings mem).rest
  rw [parsedFile, modules, ok_bind, mapM_eq_ok fun decorator _ => classes decorator, ok_bind,
    ← List.flatMap_def]
  rfl

end AngularAtlas.Checked
