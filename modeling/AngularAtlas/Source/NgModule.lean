import AngularAtlas.Source.Property
import AngularAtlas.Source.Section
import AngularAtlas.Text.Comment

namespace AngularAtlas.Source

open AngularAtlas.Text

inductive MetadataKey where
  | imports
  | exports
  | declarations
  | entryComponents
  | providers
  | bootstrap
deriving Repr, DecidableEq

namespace MetadataKey

def all : List MetadataKey :=
  [.imports, .exports, .declarations, .entryComponents, .providers, .bootstrap]

def name : MetadataKey → String
  | .imports => "imports"
  | .exports => "exports"
  | .declarations => "declarations"
  | .entryComponents => "entryComponents"
  | .providers => "providers"
  | .bootstrap => "bootstrap"

end MetadataKey

structure NgModule where
  name : String := ""
  file : String := ""
  imports : List String := []
  exports : List String := []
  declarations : List String := []
  entryComponents : List String := []
  providers : List String := []
  bootstrap : List String := []
  /-- It configures the router, or is named for that. -/
  isRouting : Bool := false
deriving Repr, DecidableEq, Inhabited

/-- The sizes of the arrays in the order of the summary table: declarations, imports, exports,
bootstrap, providers, entry components. -/
def NgModule.counts (m : NgModule) : List Nat :=
  [m.declarations.length, m.imports.length, m.exports.length, m.bootstrap.length,
    m.providers.length, m.entryComponents.length]

inductive MetadataError where
  | unclosed (key : MetadataKey)
deriving Repr, DecidableEq

def MetadataError.message : MetadataError → String
  | .unclosed key => "unbalanced brackets in '" ++ key.name ++ "' section"

/-- What an object literal says about a dependency: the last thing it provides, and the last
thing it provides it by. -/
structure Provision where
  token : Option (List Char) := none
  source : Option (List Char) := none

def sourceKeys : List (List Char) :=
  ["useClass".toList, "useValue".toList, "useFactory".toList, "useExisting".toList]

def Provision.add (p : Provision) (property : List Char × List Char) : Provision :=
  let (key, value) := property
  if key = "provide".toList then { p with token := some (unquote value) }
  else if sourceKeys.contains key then { p with source := some (unquote value) }
  else p

/-- A provider as it is listed. A literal with a token and a source reads `X provided by Y`; all
else stays as it is. -/
def formatProvider (provider : List Char) : List Char :=
  match ((objectProperties? provider).getD []).foldl Provision.add {} with
  | ⟨some token, some source⟩ => token ++ " provided by ".toList ++ source
  | _ => trim provider

def routerSetup? : Reader Unit := fun _ s => do
  let s ← "RouterModule".toList.isPrefixOf? s
  let s ← afterChar? '.' (skipBlanks s)
  let s ← afterAny? ["forRoot".toList, "forChild".toList] (skipBlanks s)
  guard (s.head?.all fun c => !isWord c)
  return ((), s)

def configuresRouter (element : String) : Bool := (findFirst? routerSetup? element.toList).isSome

def sectionElements (metadata : List Char) (key : MetadataKey) :
    Except MetadataError (List (List Char)) :=
  match findSection metadata key.name.toList with
  | .missing => .ok []
  | .unclosed => .error (.unclosed key)
  | .found body => .ok (elements body)

def NgModule.ofMetadata (metadata : List Char) : Except MetadataError NgModule := do
  let read := sectionElements (removeComments metadata)
  let imports ← read .imports
  let exports ← read .exports
  let declarations ← read .declarations
  let entryComponents ← read .entryComponents
  let providers ← read .providers
  let bootstrap ← read .bootstrap
  let imports := imports.map String.ofList
  return {
    imports
    exports := exports.map String.ofList
    declarations := declarations.map String.ofList
    entryComponents := entryComponents.map String.ofList
    providers := providers.map fun p => String.ofList (formatProvider p)
    bootstrap := bootstrap.map String.ofList
    isRouting := imports.any configuresRouter }

end AngularAtlas.Source
