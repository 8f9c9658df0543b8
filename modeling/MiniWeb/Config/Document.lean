import MiniWeb.Config.Load

/-!
# Documents

Routes and server blocks as a configuration file lists them, and the three ways to write them
down. The values are texts that each format can hold without escapes: the types carry the bytes
they avoid and the sizes of the fields they are for.
-/

namespace MiniWeb.Config

open CStr Routing

/-! ## Values -/

/-- A byte that stands for itself in all three formats. -/
def isPlain (c : UInt8) : Bool := 32 ≤ c ∧ c ∉ ascii "\"#'[\\]\x7b\x7d"

/-- A text for a field of `size` bytes, perhaps empty, with blanks only inside. -/
structure Phrase (size : Nat) where
  text : CStr
  plain : ∀ c ∈ text, isPlain c = true
  starts : text.head? ≠ some 32
  ends : text.getLast? ≠ some 32
  short : text.length < size

structure Word (size : Nat) extends Phrase size where
  nonempty : text ≠ []
  solid : 32 ∉ text

/-- The path of a route as it is written, that is with the `*` of a prefix. -/
structure RoutePath extends Word 256 where
  absolute : text.head? = some 47

/-- One definition of routes: a path and a handler for some methods. -/
structure RouteDef where
  methods : List (Word 16)
  path : RoutePath
  handler : Word 64
  realm : Phrase 64
  role : Phrase 32

/-- A server block. An Nginx block takes a `=` for the end of the key. -/
structure BlockDef where
  listen : Phrase 128
  names : List (Word 128)
  root : Phrase 128
  accessLog : Phrase 128
  listens : listen.text ≠ []
  few : names.length ≤ maxServerNames
  noEquals : 61 ∉ listen.text ∧ 61 ∉ root.text ∧ 61 ∉ accessLog.text ∧ ∀ w ∈ names, 61 ∉ w.text

/-- The routes and the server blocks of a file. -/
structure Listing where
  routes : List RouteDef
  blocks : List BlockDef
  fits : blocks.length ≤ maxServerBlocks

/-! ## What they mean -/

def RouteDef.handlerType (d : RouteDef) : HandlerType := routeTableLookupHandler d.handler.text

/-- The route for one of the methods. -/
def RouteDef.route (d : RouteDef) (method : Word 16) : Route where
  method := method.text.map toUpper
  path := (pathMatch d.path.text).1
  matchType := (pathMatch d.path.text).2
  handler := d.handlerType
  authRealm := d.realm.text
  requiredRole := d.role.text

/-- The routes of a definition are added, one for each method. -/
def RouteDef.addTo (d : RouteDef) (rt : RouteTable) : Loaded RouteTable :=
  if d.handlerType = .none ∨ d.methods = [] then .error .refused
  else d.methods.foldlM (fun rt method => addRoute (d.route method) rt) rt

/-- The route table the definitions make up. -/
def Listing.routeTable (l : Listing) : Loaded RouteTable :=
  l.routes.foldlM (fun rt d => d.addTo rt) routeTableInit

def BlockDef.block (b : BlockDef) : ServerBlock :=
  { parseListen b.listen.text .fresh with
    serverNames := b.names.map (·.text)
    root := b.root.text
    accessLog := b.accessLog.text }

/-! ## Nginx -/

/-- A line for a value, unless it is empty. -/
def optionalLine (value line : CStr) : List CStr := if value = [] then [] else [line]

def joinWords {size : Nat} (words : List (Word size)) : CStr :=
  [32].intercalate (words.map (·.text))

def RouteDef.locationHead (d : RouteDef) : CStr :=
  if (ascii "/*").isSuffixOf d.path.text then ascii "location " ++ d.path.text
  else ascii "location = " ++ d.path.text

def RouteDef.nginxBody (d : RouteDef) : List CStr :=
  [ascii "    handler " ++ d.handler.text ++ ascii ";"] ++
    (if d.methods = [] then [] else [ascii "    methods " ++ joinWords d.methods ++ ascii ";"]) ++
    optionalLine d.realm.text (ascii "    auth_basic \"" ++ d.realm.text ++ ascii "\";") ++
    optionalLine d.role.text (ascii "    auth_role " ++ d.role.text ++ ascii ";")

def RouteDef.nginx (d : RouteDef) : List CStr :=
  [d.locationHead ++ ascii " \x7b"] ++ d.nginxBody ++ [ascii "\x7d"]

def BlockDef.nginxBody (b : BlockDef) : List CStr :=
  [ascii "    listen " ++ b.listen.text ++ ascii ";"] ++
    (if b.names = [] then [] else [ascii "    server_name " ++ joinWords b.names ++ ascii ";"]) ++
    optionalLine b.root.text (ascii "    root " ++ b.root.text ++ ascii ";") ++
    optionalLine b.accessLog.text (ascii "    access_log " ++ b.accessLog.text ++ ascii ";")

def BlockDef.nginx (b : BlockDef) : List CStr :=
  [ascii "server \x7b"] ++ b.nginxBody ++ [ascii "\x7d"]

def Listing.nginx (l : Listing) : List UInt8 :=
  unlines (l.blocks.flatMap (·.nginx) ++ l.routes.flatMap (·.nginx))

/-! ## Keys and values -/

/-- The keys and the values of one route, whose method can be missing. -/
def RouteDef.fields (d : RouteDef) (method : Option (Word 16)) : List (CStr × CStr) :=
  (method.map fun m => (ascii "method", m.text)).toList ++
    [(ascii "path", d.path.text), (ascii "handler", d.handler.text)] ++
    (if d.realm.text = [] then [] else [(ascii "auth", d.realm.text)]) ++
    (if d.role.text = [] then [] else [(ascii "role", d.role.text)])

/-- One record for each method, and one without method if there is none. -/
def RouteDef.records (d : RouteDef) : List (List (CStr × CStr)) :=
  if d.methods = [] then [d.fields none] else d.methods.map fun m => d.fields (some m)

/-! ## JSON -/

def quote (s : CStr) : CStr := ascii "\"" ++ s ++ ascii "\""

def jsonPair (key value : CStr) : CStr := quote key ++ ascii ": " ++ value

/-- The members of an object in one line. -/
def jsonObject (members : List CStr) : CStr :=
  ascii "\x7b" ++ (ascii ", ").intercalate members ++ ascii "\x7d"

/-- An array of objects, each on a line. -/
def jsonArray (objects : List CStr) : CStr :=
  ascii "[\n    " ++ (ascii ",\n    ").intercalate objects ++ ascii "\n  ]"

def jsonRoute (fields : List (CStr × CStr)) : CStr :=
  jsonObject (fields.map fun (key, value) => jsonPair key (quote value))

def BlockDef.jsonNames (b : BlockDef) : CStr :=
  ascii "[" ++ (ascii ", ").intercalate (b.names.map fun w => quote w.text) ++ ascii "]"

def BlockDef.json (b : BlockDef) : CStr :=
  jsonObject
    ([jsonPair (ascii "listen") (quote b.listen.text)] ++
      (if b.names = [] then [] else [jsonPair (ascii "server_name") b.jsonNames]) ++
      optionalLine b.root.text (jsonPair (ascii "root") (quote b.root.text)) ++
      optionalLine b.accessLog.text (jsonPair (ascii "access_log") (quote b.accessLog.text)))

def Listing.json (l : Listing) : List UInt8 :=
  ascii "\x7b\n  " ++ jsonPair (ascii "servers") (jsonArray (l.blocks.map (·.json))) ++
    ascii ",\n  " ++
    jsonPair (ascii "routes") (jsonArray ((l.routes.flatMap (·.records)).map jsonRoute)) ++
    ascii "\n\x7d\n"

/-! ## YAML -/

def yamlPair (key value : CStr) : CStr := key ++ ascii ": " ++ value

/-- A list item: the first line has the dash. -/
def yamlItem (pairs : List CStr) : List CStr :=
  match pairs with
  | [] => []
  | pair :: pairs => (ascii "  - " ++ pair) :: pairs.map (ascii "    " ++ ·)

def yamlRoute (fields : List (CStr × CStr)) : List CStr :=
  yamlItem (fields.map fun (key, value) => yamlPair key value)

def BlockDef.yamlNames (b : BlockDef) : List CStr :=
  if b.names = [] then []
  else ascii "server_name:" :: b.names.map fun w => ascii "  - " ++ w.text

def BlockDef.yaml (b : BlockDef) : List CStr :=
  yamlItem
    ([yamlPair (ascii "listen") (quote b.listen.text)] ++ b.yamlNames ++
      optionalLine b.root.text (yamlPair (ascii "root") b.root.text) ++
      optionalLine b.accessLog.text (yamlPair (ascii "access_log") b.accessLog.text))

def Listing.yaml (l : Listing) : List UInt8 :=
  unlines
    ([ascii "---", ascii "servers:"] ++ l.blocks.flatMap (·.yaml) ++ [ascii "routes:"] ++
      (l.routes.flatMap (·.records)).flatMap yamlRoute)

/-- The listing in a format. -/
def Listing.render (l : Listing) (format : ConfigFormat) : List UInt8 :=
  match format with
  | .nginx => l.nginx
  | .json => l.json
  | .yaml => l.yaml

end MiniWeb.Config
