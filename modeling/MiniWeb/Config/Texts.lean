import MiniWeb.Config.JsonStrings
import MiniWeb.Config.Formats

/-!
# Documents of any texts

Routes and server blocks whose values are any texts, and the three ways to write them down: JSON
escapes a value, YAML quotes it if it cannot stand for itself, and Nginx has no way to do either. A
document of plain values is a listing, and is written as the listing is.
-/

namespace MiniWeb.Config

open CStr Routing

/-! ## Documents -/

/-- A route for one method, with its path as it is written. -/
structure RouteText where
  method : CStr
  path : CStr
  handler : CStr
  realm : CStr
  role : CStr

structure BlockText where
  listen : CStr
  names : List CStr
  root : CStr
  accessLog : CStr

/-- The routes and the server blocks of a document. -/
structure Texts where
  routes : List RouteText
  blocks : List BlockText

/-- The values fit their fields. -/
structure RouteText.Fits (r : RouteText) : Prop where
  method : r.method ≠ [] ∧ r.method.length < 16
  path : r.path ≠ [] ∧ r.path.length < 256
  realm : r.realm.length < 64
  role : r.role.length < 32

structure BlockText.Fits (b : BlockText) : Prop where
  listen : b.listen ≠ [] ∧ b.listen.length < 128
  names : ∀ name ∈ b.names, name ≠ [] ∧ name.length < 128
  few : b.names.length ≤ maxServerNames
  root : b.root.length < 128
  accessLog : b.accessLog.length < 128

/-- The method, the path and the kind of match of a route. -/
def RouteText.key (r : RouteText) : CStr × CStr × MatchType :=
  (r.method.map toUpper, pathMatch r.path)

/-- Distinct routes for known handlers, at most 128, and 1 to 16 server blocks. -/
structure Texts.IsDocument (t : Texts) : Prop where
  routesFit : ∀ r ∈ t.routes, r.Fits
  known : ∀ r ∈ t.routes, routeTableLookupHandler r.handler ≠ .none
  distinct : (t.routes.map RouteText.key).Nodup
  few : t.routes.length ≤ maxRoutes
  blocksFit : ∀ b ∈ t.blocks, b.Fits
  blocks : t.blocks ≠ []
  room : t.blocks.length ≤ maxServerBlocks

/-! ## Rendering -/

/-- The value stands for itself in a line. -/
def isPlainText (s : CStr) : Bool :=
  s.all isPlain && decide (s.head? ≠ some 32) && decide (s.getLast? ≠ some 32)

def jsonText (s : CStr) : CStr := quote (jsonEscape s)

def yamlText (s : CStr) : CStr := if isPlainText s then s else jsonText s

def RouteText.locationHead (r : RouteText) : CStr :=
  if (ascii "/*").isSuffixOf r.path then ascii "location " ++ r.path
  else ascii "location = " ++ r.path

def RouteText.nginx (r : RouteText) : List CStr :=
  [r.locationHead ++ ascii " \x7b", ascii "    handler " ++ r.handler ++ ascii ";",
      ascii "    methods " ++ r.method ++ ascii ";"] ++
    optionalLine r.realm (ascii "    auth_basic \"" ++ r.realm ++ ascii "\";") ++
    optionalLine r.role (ascii "    auth_role " ++ r.role ++ ascii ";") ++ [ascii "\x7d"]

/-- The keys and the values of a route. -/
def RouteText.fields (r : RouteText) : List (CStr × CStr) :=
  [(ascii "method", r.method), (ascii "path", r.path), (ascii "handler", r.handler)] ++
    (if r.realm = [] then [] else [(ascii "auth", r.realm)]) ++
    (if r.role = [] then [] else [(ascii "role", r.role)])

def BlockText.nginx (b : BlockText) : List CStr :=
  [ascii "server \x7b", ascii "    listen " ++ b.listen ++ ascii ";"] ++
    (if b.names = [] then []
      else [ascii "    server_name " ++ [32].intercalate b.names ++ ascii ";"]) ++
    optionalLine b.root (ascii "    root " ++ b.root ++ ascii ";") ++
    optionalLine b.accessLog (ascii "    access_log " ++ b.accessLog ++ ascii ";") ++ [ascii "\x7d"]

def BlockText.json (b : BlockText) : CStr :=
  jsonObject
    ([jsonPair (ascii "listen") (jsonText b.listen)] ++
      (if b.names = [] then []
        else [jsonPair (ascii "server_name")
          (ascii "[" ++ (ascii ", ").intercalate (b.names.map jsonText) ++ ascii "]")]) ++
      optionalLine b.root (jsonPair (ascii "root") (jsonText b.root)) ++
      optionalLine b.accessLog (jsonPair (ascii "access_log") (jsonText b.accessLog)))

def BlockText.yaml (b : BlockText) : List CStr :=
  yamlItem
    ([yamlPair (ascii "listen") (jsonText b.listen)] ++
      (if b.names = [] then []
        else ascii "server_name:" :: b.names.map fun name => ascii "  - " ++ yamlText name) ++
      optionalLine b.root (yamlPair (ascii "root") (yamlText b.root)) ++
      optionalLine b.accessLog (yamlPair (ascii "access_log") (yamlText b.accessLog)))

/-- The document in a format. -/
def Texts.render (t : Texts) (format : ConfigFormat) : List UInt8 :=
  match format with
  | .nginx => unlines (t.blocks.flatMap (·.nginx) ++ t.routes.flatMap (·.nginx))
  | .json =>
    ascii "\x7b\n  " ++ jsonPair (ascii "servers") (jsonArray (t.blocks.map (·.json))) ++
      ascii ",\n  " ++
      jsonPair (ascii "routes") (jsonArray (t.routes.map fun r =>
        jsonObject (r.fields.map fun (key, value) => jsonPair key (jsonText value)))) ++
      ascii "\n\x7d\n"
  | .yaml =>
    unlines
      ([ascii "---", ascii "servers:"] ++ t.blocks.flatMap (·.yaml) ++ [ascii "routes:"] ++
        t.routes.flatMap fun r =>
          yamlItem (r.fields.map fun (key, value) => yamlPair key (yamlText value)))

/-- All loaders load the document, with the same routes and the same server blocks. -/
def Texts.Agree (t : Texts) : Prop :=
  ∃ view, ∀ format, (loadText format (t.render format)).map LoadedConfig.view = .ok view

/-! ## Plain documents -/

/-- Values that stand for themselves in all three formats. -/
structure RouteText.Plain (r : RouteText) : Prop where
  method : isPlainText r.method = true ∧ 32 ∉ r.method
  path : isPlainText r.path = true ∧ 32 ∉ r.path ∧ r.path.head? = some 47
  realm : isPlainText r.realm = true
  role : isPlainText r.role = true

/-- In a server block Nginx takes a `=` for the end of the key. -/
structure BlockText.Plain (b : BlockText) : Prop where
  listen : isPlainText b.listen = true ∧ 61 ∉ b.listen
  names : ∀ name ∈ b.names, isPlainText name = true ∧ 32 ∉ name ∧ 61 ∉ name
  root : isPlainText b.root = true ∧ 61 ∉ b.root
  accessLog : isPlainText b.accessLog = true ∧ 61 ∉ b.accessLog

structure Texts.Plain (t : Texts) : Prop where
  routes : ∀ r ∈ t.routes, r.Plain
  blocks : ∀ b ∈ t.blocks, b.Plain

section

variable {size : Nat} {s : CStr}

theorem isPlainText_iff : isPlainText s = true ↔
    (∀ c ∈ s, isPlain c = true) ∧ s.head? ≠ some 32 ∧ s.getLast? ≠ some 32 := by
  simp only [isPlainText, Bool.and_eq_true, List.all_eq_true, decide_eq_true_eq, and_assoc]

def plainPhrase (s : CStr) (h : isPlainText s = true ∧ s.length < size) : Phrase size where
  text := s
  plain := (isPlainText_iff.mp h.1).1
  starts := (isPlainText_iff.mp h.1).2.1
  ends := (isPlainText_iff.mp h.1).2.2
  short := h.2

def plainWord (s : CStr) (h : isPlainText s = true ∧ s.length < size) (hne : s ≠ [])
    (hsolid : 32 ∉ s) : Word size where
  toPhrase := plainPhrase s h
  nonempty := hne
  solid := hsolid

/-- The names of the handlers are plain words. -/
theorem known_plain (h : routeTableLookupHandler s ≠ .none) :
    (isPlainText s = true ∧ s.length < 64) ∧ s ≠ [] ∧ 32 ∉ s := by
  have hall : ∀ e ∈ handlerRegistry,
      (isPlainText e.1 = true ∧ e.1.length < 64) ∧ e.1 ≠ [] ∧ 32 ∉ e.1 := by decide
  cases hlookup : handlerRegistry.lookup s with
  | none => exact absurd (congrArg (·.getD .none) hlookup) h
  | some type =>
    obtain ⟨before, after, heq, -⟩ := List.lookup_eq_some_iff.mp hlookup
    exact hall (s, type) (heq ▸ List.mem_append_right before List.mem_cons_self)

end

/-- The definition of a plain route that fits. -/
def RouteText.routeDef (r : RouteText)
    (h : r.Fits ∧ r.Plain ∧ routeTableLookupHandler r.handler ≠ .none) : RouteDef where
  methods := [plainWord r.method ⟨h.2.1.method.1, h.1.method.2⟩ h.1.method.1 h.2.1.method.2]
  path :=
    { plainWord r.path ⟨h.2.1.path.1, h.1.path.2⟩ h.1.path.1 h.2.1.path.2.1 with
      absolute := h.2.1.path.2.2 }
  handler := plainWord r.handler (known_plain h.2.2).1 (known_plain h.2.2).2.1
    (known_plain h.2.2).2.2
  realm := plainPhrase r.realm ⟨h.2.1.realm, h.1.realm⟩
  role := plainPhrase r.role ⟨h.2.1.role, h.1.role⟩

def plainName (name : CStr)
    (h : (name ≠ [] ∧ name.length < 128) ∧ isPlainText name = true ∧ 32 ∉ name ∧ 61 ∉ name) :
    Word 128 :=
  plainWord name ⟨h.2.1, h.1.2⟩ h.1.1 h.2.2.1

/-- The definition of a plain block that fits. -/
def BlockText.blockDef (b : BlockText) (h : b.Fits ∧ b.Plain) : BlockDef where
  listen := plainPhrase b.listen ⟨h.2.listen.1, h.1.listen.2⟩
  names := b.names.pmap plainName fun name hname => ⟨h.1.names name hname, h.2.names name hname⟩
  root := plainPhrase b.root ⟨h.2.root.1, h.1.root⟩
  accessLog := plainPhrase b.accessLog ⟨h.2.accessLog.1, h.1.accessLog⟩
  listens := h.1.listen.1
  few := by
    rw [List.length_pmap]
    exact h.1.few
  noEquals := by
    refine ⟨h.2.listen.2, h.2.root.2, h.2.accessLog.2, fun w hw => ?_⟩
    obtain ⟨name, hname, rfl⟩ := List.mem_pmap.mp hw
    exact (h.2.names name hname).2.2

/-- The listing of a plain document. -/
def Texts.listing (t : Texts) (hdoc : t.IsDocument) (hplain : t.Plain) : Listing where
  routes := t.routes.pmap RouteText.routeDef fun r hr =>
    ⟨hdoc.routesFit r hr, hplain.routes r hr, hdoc.known r hr⟩
  blocks := t.blocks.pmap BlockText.blockDef fun b hb =>
    ⟨hdoc.blocksFit b hb, hplain.blocks b hb⟩
  fits := by
    rw [List.length_pmap]
    exact hdoc.room

section

variable {α β γ : Type} {P : α → Prop} {f : ∀ a, P a → β} {l : List α} {h : ∀ a ∈ l, P a}

end

/-! ## The same texts -/

section

variable {r : RouteText} (h : r.Fits ∧ r.Plain ∧ routeTableLookupHandler r.handler ≠ .none)

end

section

variable {b : BlockText} (h : b.Fits ∧ b.Plain)

@[simp] theorem BlockText.listen_blockDef : (b.blockDef h).listen.text = b.listen := rfl

@[simp] theorem BlockText.root_blockDef : (b.blockDef h).root.text = b.root := rfl

@[simp] theorem BlockText.accessLog_blockDef : (b.blockDef h).accessLog.text = b.accessLog := rfl

end

section

variable {t : Texts} (hdoc : t.IsDocument) (hplain : t.Plain)

end

end MiniWeb.Config
