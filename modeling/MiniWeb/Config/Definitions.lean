import MiniWeb.Config.Load
import MiniWeb.Lib.DataText
import MiniWeb.Lib.Words

/-!
# The route definitions of a text

What stands in a configuration text, whatever its loader makes of it: texts of any length, all items
of a list and all methods of a location. An Nginx text is read line by line, as its directives are
written; the other two are values in the notation of their format, with routes at the top and in
the server blocks.
-/

namespace MiniWeb.Config

open CStr Routing DataText Words

/-! ## Definitions -/

/-- A route as it is written: it has at most one method, and names a handler, or several. -/
structure Definition where
  method : Option CStr
  path : Option CStr
  handlers : List CStr
deriving DecidableEq, Repr

/-- The method, the path and the kind of match. -/
def Definition.key (d : Definition) : Option (CStr × CStr × MatchType) :=
  d.method.bind fun method => d.path.map fun path => (method.map toUpper, pathMatch path)

/-- A definition names an unknown handler or has no method, or two have the same key. -/
def Faulty (ds : List Definition) : Prop :=
  (∃ d ∈ ds, ∃ name ∈ d.handlers, routeTableLookupHandler name = .none) ∨
    (∃ d ∈ ds, d.method = none) ∨ ¬(ds.filterMap Definition.key).Nodup

/-! ## Nginx -/

/-- A location block as far as it is written. -/
structure LocationText where
  path : CStr
  handlers : List CStr
  methods : List CStr
deriving DecidableEq, Repr

/-- The path in a line that opens a location, behind the `=` of an exact match. -/
def writtenPath (text : CStr) : CStr :=
  let p := (text.drop 8).dropWhile fun c => c = 32 ∨ c = 9
  let p := if p.head? = some 61 then (p.drop 1).dropWhile fun c => c = 32 ∨ c = 9 else p
  p.takeWhile fun c => c ≠ 32 ∧ c ≠ 9 ∧ c ≠ 123

/-- A directive is a key and words. They stand apart, and a semicolon may end the line. -/
def LocationText.add (text : CStr) (loc : LocationText) : LocationText :=
  match words (fun c => c = 32 ∨ c = 9 ∨ c = 59 ∨ c = 61) text with
  | [] => loc
  | key :: values =>
    if key = ascii "handler" then { loc with handlers := loc.handlers ++ values }
    else if key = ascii "methods" then { loc with methods := loc.methods ++ values }
    else loc

/-- The locations in the lines, behind the first lines of one that is open. -/
def locationTexts : List CStr → Option LocationText → List LocationText
  | [], spot => spot.toList
  | text :: texts, spot =>
    if text = [] ∨ text.head? = some 35 then locationTexts texts spot
    else
      match spot with
      | none =>
        if startsWith text (ascii "location") then
          locationTexts texts (some ⟨writtenPath text, [], []⟩)
        else locationTexts texts none
      | some loc =>
        if text.head? = some 125 then loc :: locationTexts texts none
        else locationTexts texts (some (loc.add text))

/-- A location has one definition for each method. -/
def LocationText.definitions (loc : LocationText) : List Definition :=
  if loc.methods = [] then [⟨none, some loc.path, loc.handlers⟩]
  else loc.methods.map fun method => ⟨some method, some loc.path, loc.handlers⟩

def nginxDefinitions (file : List UInt8) : List Definition :=
  (locationTexts ((file.splitOn 10).map trim) none).flatMap (·.definitions)

/-! ## JSON and YAML -/

/-- The texts under a key that are not empty. -/
def textsUnder (key : CStr) (v : Value) : List CStr :=
  ((v.under key).filterMap (·.text?)).filter (· ≠ [])

/-- A route is a mapping. -/
def routeDefinition (v : Value) : Option Definition :=
  match v with
  | .map _ =>
    some
      { method := (textsUnder (ascii "method") v).head?
        path := (textsUnder (ascii "path") v).head?
        handlers := textsUnder (ascii "handler") v }
  | _ => none

/-- The definitions in the `routes` lists of a mapping. -/
def routeDefinitions (v : Value) : List Definition :=
  ((v.under (ascii "routes")).flatMap (·.items)).filterMap routeDefinition

def valueDefinitions (v : Value) : List Definition :=
  routeDefinitions v ++
    ((v.under (ascii "servers")).flatMap (·.items)).flatMap routeDefinitions

/-! ## What is written -/

/-- The text is one of the format, and these are the route definitions written in it. -/
def Writes (format : ConfigFormat) (file : List UInt8) (ds : List Definition) : Prop :=
  match format with
  | .nginx => ds = nginxDefinitions file
  | .json =>
    ∃ lead text trail v, JsonText.IsGap lead ∧ IsJson text v ∧ JsonText.IsGap trail ∧
      file = lead ++ text ++ trail ∧ ds = valueDefinitions v
  | .yaml => ∃ v, IsYaml file v ∧ ds = valueDefinitions v

end MiniWeb.Config
