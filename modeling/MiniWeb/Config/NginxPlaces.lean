import MiniWeb.Config.Demands

/-!
# What the Nginx loader comes by

The lines of a file open and close server and location blocks. The loader asks for a server where
its block is opened, and for the routes of a location where its block is closed. Where a line stands
and what it asks for depends on the lines before it alone.
-/

namespace MiniWeb.Config

open CStr Routing

/-! ## Lines -/

/-- Where a line stands. -/
inductive Spot
  | outside
  | server
  | location (loc : Location) (inServer : Bool)

def Spot.isOutside : Spot → Bool
  | .outside => true
  | _ => false

/-- What a location asks for that is closed. -/
def Location.demand (loc : Location) : Demand :=
  match loc.handlerName with
  | none => .wrong
  | some handlerName =>
    let htype := routeTableLookupHandler handlerName
    if htype = .none ∨ loc.methods = [] then .wrong
    else .routes (loc.methods.map (loc.route htype))

/-- The line that opens a location. -/
def nginxOpen (text : CStr) (inServer : Bool) : Spot × List Demand :=
  match openLocation text with
  | .ok loc => (.location loc inServer, [])
  | .error _ => (.outside, [.wrong])

/-- Where the next line stands, and what the line asks for. -/
def nginxLine (text : CStr) (spot : Spot) : Spot × List Demand :=
  if text = [] ∨ text.head? = some 35 then (spot, [])
  else
    match spot with
    | .outside =>
      if text = ascii "server \x7b" ∨ startsWith text (ascii "server\x7b") then
        (.server, [.server])
      else if startsWith text (ascii "location") then nginxOpen text false
      else (.outside, [])
    | .server =>
      if text.head? = some 125 then (.outside, [])
      else if startsWith text (ascii "location") then nginxOpen text true
      else (.server, [])
    | .location loc inServer =>
      if text.head? = some 125 then (if inServer then .server else .outside, [loc.demand])
      else
        match keyValue 32 (stripSemicolon text) with
        | none => (.location loc inServer, [])
        | some (key, value) => (.location (locationDirective key value loc) inServer, [])

/-- Where the lines end, and what they ask for. -/
def nginxDemands : List CStr → Spot → Spot × List Demand
  | [], spot => (spot, [])
  | text :: texts, spot =>
    let behind := nginxDemands texts (nginxLine text spot).1
    (behind.1, (nginxLine text spot).2 ++ behind.2)

/-! ## What the loader does -/

def Reader.spot : Reader → Spot
  | .topLevel => .outside
  | .serverBlock _ => .server
  | .location loc caller => .location loc caller.isSome

/-- The loader is in a server block, which it adds to the others when the block is closed. -/
def Reader.inServer : Reader → Bool
  | .topLevel => false
  | .serverBlock _ => true
  | .location _ caller => caller.isSome

/-- The number of server blocks that were opened, and the routes. -/
def blocksOpened (reader : Reader) (config : LoadedConfig) : Nat × RouteTable :=
  (config.servers.length + reader.inServer.toNat, config.routeTable)

/-- Where the loader is and what it has, behind some lines. -/
def standing (r : Reader × LoadedConfig) : Spot × (Nat × RouteTable) :=
  (r.1.spot, blocksOpened r.1 r.2)

variable {text : CStr} {reader : Reader} {config : LoadedConfig}

/-- The loader at one line goes on where the next line stands, with what the line asks for. -/
def LineMeets (text : CStr) (reader : Reader) (config : LoadedConfig)
    (result : Loaded (Reader × LoadedConfig)) : Prop :=
  result.map standing =
    (meets (nginxLine text reader.spot).2 (blocksOpened reader config)).map fun state =>
      ((nginxLine text reader.spot).1, state)

theorem openLocation_meets (text : CStr) (caller : Option ServerBlock) (config : LoadedConfig) :
    ((openLocation text).map fun loc => (Reader.location loc caller, config)).map standing =
      (meets (nginxOpen text caller.isSome).2
        (config.servers.length + caller.isSome.toNat, config.routeTable)).map fun state =>
          ((nginxOpen text caller.isSome).1, state) := by
  rw [nginxOpen, openLocation]
  cases locationPath text with
  | none => rfl
  | some path => rfl

theorem readTopLevel_meets (text : CStr) (config : LoadedConfig) :
    LineMeets text .topLevel config (readTopLevel text config) := by
  rw [LineMeets, readTopLevel, Reader.spot, nginxLine]
  by_cases hskip : text = [] ∨ text.head? = some 35
  · rw [if_pos hskip, if_pos hskip]
    rfl
  rw [if_neg hskip, if_neg hskip]
  by_cases hserver : text = ascii "server \x7b" ∨ startsWith text (ascii "server\x7b")
  · rw [if_pos hserver, if_pos hserver, meets_cons, blocksOpened, Reader.inServer, Bool.toNat_false,
      Nat.add_zero, meet]
    by_cases hfull : maxServerBlocks ≤ config.servers.length
    · rw [if_pos hfull, if_pos hfull]
      rfl
    · rw [if_neg hfull, if_neg hfull]
      rfl
  rw [if_neg hserver, if_neg hserver]
  by_cases hlocation : startsWith text (ascii "location") = true
  · rw [if_pos hlocation, if_pos hlocation]
    exact openLocation_meets text none config
  rw [if_neg hlocation, if_neg hlocation]
  split_ifs
  · rfl
  · cases directive (stripSemicolon text) with
    | none => rfl
    | some d => rfl

theorem readServerBlock_meets (text : CStr) (block : ServerBlock) (config : LoadedConfig) :
    LineMeets text (.serverBlock block) config (readServerBlock text block config) := by
  rw [LineMeets, readServerBlock, Reader.spot, nginxLine]
  by_cases hskip : text = [] ∨ text.head? = some 35
  · rw [if_pos hskip, if_pos hskip]
    rfl
  rw [if_neg hskip, if_neg hskip]
  by_cases hbrace : text.head? = some 125
  · rw [if_pos hbrace, if_pos hbrace, meets_nil]
    simp [Except.map, standing, Reader.spot, blocksOpened, Reader.inServer]
  rw [if_neg hbrace, if_neg hbrace]
  by_cases hlocation : startsWith text (ascii "location") = true
  · rw [if_pos hlocation, if_pos hlocation]
    exact openLocation_meets text (some block) config
  rw [if_neg hlocation, if_neg hlocation]
  cases directive (stripSemicolon text) with
  | none => rfl
  | some d => rfl

/-- Closing a location asks for its routes. -/
theorem closeLocation_meet (loc : Location) (n : Nat) (rt : RouteTable) :
    meets [loc.demand] (n, rt) = (closeLocation loc rt).map fun rt => (n, rt) := by
  have hmeets : meets [loc.demand] (n, rt) = meet loc.demand (n, rt) := by
    rw [meets_cons]
    cases meet loc.demand (n, rt) with
    | error e => rfl
    | ok state => rfl
  rw [hmeets, closeLocation, Location.demand]
  cases loc.handlerName with
  | none => rfl
  | some name =>
    dsimp only
    by_cases hnone : routeTableLookupHandler name = .none
    · rw [if_pos hnone, if_pos (Or.inl hnone)]
      rfl
    · by_cases hempty : loc.methods = []
      · rw [if_neg hnone, if_pos hempty, if_pos (Or.inr hempty)]
        rfl
      · rw [if_neg hnone, if_neg hempty, if_neg (not_or_intro hnone hempty), meet,
          List.foldlM_map]

theorem readLocation_meets (text : CStr) (loc : Location) (caller : Option ServerBlock)
    (config : LoadedConfig) :
    LineMeets text (.location loc caller) config (readLocation text loc caller config) := by
  rw [LineMeets, readLocation, Reader.spot, nginxLine]
  by_cases hskip : text = [] ∨ text.head? = some 35
  · rw [if_pos hskip, if_pos hskip]
    rfl
  rw [if_neg hskip, if_neg hskip]
  by_cases hbrace : text.head? = some 125
  · rw [if_pos hbrace, if_pos hbrace, blocksOpened, closeLocation_meet]
    cases closeLocation loc config.routeTable with
    | error e => rfl
    | ok rt =>
      cases caller with
      | none => rfl
      | some block => rfl
  rw [if_neg hbrace, if_neg hbrace]
  cases keyValue 32 (stripSemicolon text) with
  | none => rfl
  | some d => rfl

theorem readLine_meets (line : List UInt8) (reader : Reader) (config : LoadedConfig) :
    LineMeets (lineText line) reader config (readLine line reader config) := by
  cases reader with
  | topLevel => exact readTopLevel_meets _ config
  | serverBlock block => exact readServerBlock_meets _ block config
  | location loc caller => exact readLocation_meets _ loc caller config

/-- The loader does with the lines what they ask for. -/
theorem readLines_meets (lines : List (List UInt8)) (reader : Reader) (config : LoadedConfig) :
    (readLines lines reader config).map standing =
      (meets (nginxDemands (lines.map lineText) reader.spot).2 (blocksOpened reader config)).map
        fun state => ((nginxDemands (lines.map lineText) reader.spot).1, state) := by
  induction lines generalizing reader config with
  | nil => rfl
  | cons line lines ih =>
    rw [readLines, List.map_cons, nginxDemands, meets_append]
    rcases map_eq_cases (readLine_meets line reader config) with
      ⟨e, hread, hmeets⟩ | ⟨⟨next, config'⟩, state, hread, hmeets, hstanding⟩
    · rw [hread, hmeets]
      rfl
    · rw [hread, hmeets]
      obtain ⟨hspot, hstate⟩ := Prod.mk.inj hstanding
      have hrest := ih next config'
      rw [hspot, hstate] at hrest
      exact hrest

/-- The loader gives up if a block is not closed. -/
theorem loadNginxConfig_eq (file : List UInt8) :
    (loadNginxConfig file .zero).map (·.summary) =
      (meets (nginxDemands ((fgets 256 file).map lineText) .outside).2 (0, routeTableInit)).bind
        fun state =>
          if (nginxDemands ((fgets 256 file).map lineText) .outside).1.isOutside then .ok state
          else .error .refused := by
  have hlines := readLines_meets (fgets 256 file) .topLevel .zero
  rw [Reader.spot] at hlines
  rw [loadNginxConfig]
  rcases map_eq_cases hlines with
    ⟨e, hread, hmeets⟩ | ⟨⟨reader, config⟩, state, hread, hmeets, hstanding⟩
  · have hmeets' : meets _ (0, routeTableInit) = _ := hmeets
    rw [hread, hmeets']
    rfl
  · have hmeets' : meets _ (0, routeTableInit) = _ := hmeets
    obtain ⟨hspot, hstate⟩ := Prod.mk.inj hstanding
    rw [hread, hmeets', ← hspot]
    cases reader with
    | topLevel => exact congrArg Except.ok hstate
    | serverBlock block => rfl
    | location loc caller => rfl

/-! ## The arrays -/

/-- The texts that tell the routes apart are in their arrays. -/
structure Location.Fits (loc : Location) : Prop where
  path : loc.path.length < 256
  methods : ∀ m ∈ loc.methods, m.length < 16

def Spot.Fits : Spot → Prop
  | .outside => True
  | .server => True
  | .location loc _ => loc.Fits

theorem length_locationPath_lt {path : CStr} (h : locationPath text = some path) :
    path.length < 256 := by
  rw [locationPath] at h
  split_ifs at h
  cases h
  exact Nat.lt_succ_of_le (List.length_take_le 255 _)

theorem nginxOpen_fits (text : CStr) (inServer : Bool) :
    (nginxOpen text inServer).1.Fits ∧ ∀ d ∈ (nginxOpen text inServer).2, d.Fits := by
  rw [nginxOpen, openLocation]
  cases hpath : locationPath text with
  | none => exact ⟨trivial, List.forall_mem_singleton.mpr (List.forall_mem_nil _)⟩
  | some path =>
    refine ⟨⟨?_, List.forall_mem_nil _⟩, List.forall_mem_nil _⟩
    exact lt_of_le_of_lt (length_pathMatch_le path) (length_locationPath_lt hpath)

theorem Location.Fits.directive {loc : Location} (h : loc.Fits) (key value : CStr) :
    (locationDirective key value loc).Fits := by
  rw [locationDirective]
  split_ifs
  · exact ⟨h.path, h.methods⟩
  · exact ⟨h.path, h.methods⟩
  · exact ⟨h.path, h.methods⟩
  · refine ⟨h.path, ?_⟩
    show ∀ m ∈ methodTokens value, m.length < 16
    rw [methodTokens, List.forall_mem_map]
    intro token _
    rw [List.length_map]
    exact Nat.lt_succ_of_le (List.length_take_le 15 token)
  · exact h

theorem Location.Fits.demand {loc : Location} (h : loc.Fits) : loc.demand.Fits := by
  rw [Location.demand]
  cases loc.handlerName with
  | none => exact List.forall_mem_nil _
  | some name =>
    dsimp only
    split_ifs with hbad
    · exact List.forall_mem_nil _
    · rw [Demand.Fits, Demand.routeList, List.forall_mem_map]
      exact fun m hm => ⟨⟨h.methods m hm, h.path⟩, (not_or.mp hbad).1⟩

theorem Spot.Fits.line {spot : Spot} (h : spot.Fits) (text : CStr) :
    (nginxLine text spot).1.Fits ∧ ∀ d ∈ (nginxLine text spot).2, d.Fits := by
  rw [nginxLine.eq_def]
  by_cases hskip : text = [] ∨ text.head? = some 35
  · rw [if_pos hskip]
    exact ⟨h, List.forall_mem_nil _⟩
  rw [if_neg hskip]
  cases spot with
  | outside =>
    dsimp only
    split_ifs
    · exact ⟨trivial, List.forall_mem_singleton.mpr (List.forall_mem_nil _)⟩
    · exact nginxOpen_fits text false
    · exact ⟨trivial, List.forall_mem_nil _⟩
  | server =>
    dsimp only
    split_ifs
    · exact ⟨trivial, List.forall_mem_nil _⟩
    · exact nginxOpen_fits text true
    · exact ⟨trivial, List.forall_mem_nil _⟩
  | location loc inServer =>
    have hloc : loc.Fits := h
    dsimp only
    split_ifs
    · exact ⟨trivial, List.forall_mem_singleton.mpr hloc.demand⟩
    · exact ⟨trivial, List.forall_mem_singleton.mpr hloc.demand⟩
    · cases keyValue 32 (stripSemicolon text) with
      | none => exact ⟨h, List.forall_mem_nil _⟩
      | some d => exact ⟨hloc.directive d.1 d.2, List.forall_mem_nil _⟩

theorem nginxDemands_fit (texts : List CStr) {spot : Spot} (h : spot.Fits) :
    ∀ d ∈ (nginxDemands texts spot).2, d.Fits := by
  induction texts generalizing spot with
  | nil => exact List.forall_mem_nil _
  | cons text texts ih =>
    obtain ⟨hspot, hdemands⟩ := h.line text
    exact List.forall_mem_append.mpr ⟨hdemands, ih hspot⟩

end MiniWeb.Config
