import MiniWeb.Lib.CString
import MiniWeb.Lib.Probe

/-!
# The route table

Exact routes are kept in one array and prefix routes in another, both in the order they were
added. `g_hash` maps hash slots to indices of exact routes, with `-1` for an empty slot; it is
rebuilt after each exact route that is added. The arrays are lists, their counts the lengths.

`hash_insert` and `hash_lookup` walk `g_hash` as probes; a walk that does not end has no result.
-/

namespace MiniWeb.Routing

open Loop CStr

def maxRoutes : Nat := 128
def maxAllowHeaderLen : Nat := 256
abbrev hashSize : Nat := 256

instance neZero_hashSize : NeZero hashSize := ⟨by decide⟩

inductive MatchType where
  | matchExact
  | matchPrefix
deriving DecidableEq, Repr

inductive HandlerType where
  | none
  | hello
  | help
  | sleep
  | userList
  | userByName
  | userFindIndex
  | userCompare
  | userCompareVerbose
  | userSimpleFind
  | userAdd
  | userDelete
  | deleteForm
  | search
  | index
  | blog
  | static
  | login
  | logout
deriving DecidableEq, Repr

/-- `route_entry_t`. -/
structure RouteEntry where
  path : CStr
  matchType : MatchType
  method : CStr
  handler : HandlerType
  authRealm : CStr
  requiredRole : CStr
deriving DecidableEq, Repr

def RouteEntry.zero : RouteEntry := ⟨[], .matchExact, [], .hello, [], []⟩

/-- `route_table_t`, with `g_hash`. -/
structure RouteTable where
  exact : List RouteEntry
  prefixes : List RouteEntry
  hash : Fin hashSize → Option Nat

/-- The arguments of `route_table_add`, a `NULL` realm or role being the empty string. -/
structure Route where
  method : CStr
  path : CStr
  matchType : MatchType
  handler : HandlerType
  authRealm : CStr
  requiredRole : CStr
deriving DecidableEq, Repr

/-- The entry a route is stored as. -/
def Route.entry (r : Route) : RouteEntry :=
  ⟨cut 256 r.path, r.matchType, cut 16 r.method, r.handler, cut 64 r.authRealm,
    cut 32 r.requiredRole⟩

/-! ## The hash of exact routes -/

/-- djb2 over `METHOD:/path`. -/
def hashKey (method path : CStr) : Fin hashSize :=
  Fin.ofNat hashSize (djb2 (method ++ 58 :: path) &&& 255).toNat

/-- `rt->exact[idx]`. -/
def RouteTable.entry (t : RouteTable) (idx : Nat) : RouteEntry := t.exact.getD idx .zero

def hashInsert (idx : Nat) (t : RouteTable) : Option RouteTable :=
  let e := t.entry idx
  (probe t.hash (fun _ => false) (hashKey e.method e.path)).map fun (h, _) =>
    { t with hash := Function.update t.hash h (some idx) }

def hashInsertFrom : List Nat → RouteTable → Option RouteTable
  | [], t => some t
  | i :: is, t => (hashInsert i t).bind (hashInsertFrom is)

/-- `hash_init` and `hash_insert` for every index. -/
def hashRebuild (t : RouteTable) : Option RouteTable :=
  hashInsertFrom (List.range t.exact.length) { t with hash := fun _ => none }

/-- Is the route at `idx` one for the path? -/
def RouteTable.onPath (t : RouteTable) (path : CStr) (idx : Nat) : Bool :=
  decide (strcmp (t.entry idx).path path = .eq)

/-- The index found, and whether the walk met the path with a different method. -/
def hashLookup (t : RouteTable) (method path : CStr) : Option (Option Nat × Bool) :=
  (probe t.hash (t.onPath path) (hashKey method path)).map fun
    | (_, some idx) =>
      if strcmp (t.entry idx).method method = .eq then (some idx, false) else (none, true)
    | (_, none) => (none, false)

/-! ## Adding routes -/

def routeTableInit : RouteTable := ⟨[], [], fun _ => none⟩

/-- Is the route among the entries? The arguments are compared as given, before they are cut. -/
def hasDuplicate (r : Route) (entries : List RouteEntry) : Bool :=
  entries.any fun e =>
    decide (strcmp e.path r.path = .eq) && decide (strcmp e.method r.method = .eq)

/-- `route_table_add`: `true` when it returns 0. -/
def routeTableAdd (r : Route) (t : RouteTable) : Option (Bool × RouteTable) :=
  match r.matchType with
  | .matchExact =>
    if maxRoutes ≤ t.exact.length then some (false, t)
    else if hasDuplicate r t.exact then some (false, t)
    else (hashRebuild { t with exact := t.exact ++ [r.entry] }).map fun t => (true, t)
  | .matchPrefix =>
    if maxRoutes ≤ t.prefixes.length then some (false, t)
    else if hasDuplicate r t.prefixes then some (false, t)
    else some (true, { t with prefixes := t.prefixes ++ [r.entry] })

/-- The table after a sequence of calls of `route_table_add`, whatever they return. -/
def addRoutes : List Route → RouteTable → Option RouteTable
  | [], t => some t
  | r :: rs, t => (routeTableAdd r t).bind fun (_, t) => addRoutes rs t

/-! ## Finding a route -/

/-- The loop of `build_allow_for_path`: the methods not among the first sixteen written so far
are written, until the buffer is full. -/
def writeAllow (bufsize : Nat) : List CStr → List CStr → CStr → CStr
  | [], _, buf => buf
  | method :: methods, seen, buf =>
    if method ∈ seen then writeAllow bufsize methods seen buf
    else
      let seen := if seen.length < 16 then seen ++ [method] else seen
      let buf := if buf = [] then method else buf ++ ascii ", " ++ method
      if bufsize ≤ buf.length then buf.take (bufsize - 1)
      else writeAllow bufsize methods seen buf

def methodsAt (path : CStr) (matchType : MatchType) (entries : List RouteEntry) : List CStr :=
  let listed := entries.filter fun e =>
    decide (e.matchType = matchType) && decide (strcmp e.path path = .eq)
  listed.map (·.method)

def buildAllowForPath (t : RouteTable) (path : CStr) (matchType : MatchType) : CStr :=
  let entries := match matchType with
    | .matchExact => t.exact
    | .matchPrefix => t.prefixes
  writeAllow maxAllowHeaderLen (methodsAt path matchType entries) [] []

/-- Whether the pattern matches, and what is then in the buffer `captured`. -/
def pathMatchesPrefix (pattern requestPath captured : CStr) : Bool × CStr :=
  if pattern = [] then (false, captured)
  else if startsWith requestPath pattern then (true, cut 256 (requestPath.drop pattern.length))
  else (false, [])

/-- `route_find_result_t`. -/
structure FindResult where
  entry : Option RouteEntry
  captured : CStr
  is405 : Bool
  allow : CStr
deriving DecidableEq, Repr

/-- The scan of the prefix routes, with the result as it stands. -/
def scanPrefixes (t : RouteTable) (method path : CStr) : List RouteEntry → FindResult → FindResult
  | [], result => result
  | e :: es, result =>
    let (matched, captured) := pathMatchesPrefix e.path path result.captured
    let result := { result with captured := captured }
    if matched then
      if strcmp e.method method = .eq then { result with entry := some e, is405 := false }
      else if result.is405 then scanPrefixes t method path es result
      else
        scanPrefixes t method path es
          { result with is405 := true, allow := buildAllowForPath t e.path .matchPrefix }
    else scanPrefixes t method path es result

def routeTableFind (t : RouteTable) (method path : CStr) : Option FindResult :=
  (hashLookup t method path).map fun
    | (some i, _) => ⟨some (t.entry i), [], false, []⟩
    | (none, true) => ⟨none, [], true, buildAllowForPath t path .matchExact⟩
    | (none, false) => scanPrefixes t method path t.prefixes ⟨none, [], false, []⟩

end MiniWeb.Routing
