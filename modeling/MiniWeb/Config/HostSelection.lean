import MiniWeb.Config.Servers

/-!
# Selection of a server block by host

`config_find_server` returns a pointer into `servers[]`; here it is the index of the block. The
documented rule looks for a block named after the host, then for the default block, then takes
the first one. The code also stops at a block without names, whatever stands behind it.
-/

namespace MiniWeb.Config

open CStr RequestHandler

variable {config : ServerConfig} {servers : List ServerBlock} {hostHeader : CStr}

/-! ## The index returned -/

section Index

/-- The block for a host that no block is named after: the first default one, else the first. -/
def fallbackServer (servers : List ServerBlock) : Nat :=
  (servers.findIdx? (·.isDefault)).getD 0

/-- `config_find_server` with the block returned as its index in `servers[]`. -/
def configFindServerIdx (config : ServerConfig) (hostHeader : CStr) : Option Nat :=
  if config.servers = [] then none
  else if hostHeader = [] then some (fallbackServer config.servers)
  else
    let hostClean := (cut 128 hostHeader).takeWhile (· ≠ 58)
    some ((config.servers.findIdx? (·.matchesHost hostClean)).getD
      (fallbackServer config.servers))

theorem getElem?_findIdx? {α : Type} (p : α → Bool) (l : List α) :
    (l.findIdx? p).bind (l[·]?) = l.find? p := by
  induction l with
  | nil => rfl
  | cons x l ih =>
    rw [List.findIdx?_cons, List.find?_cons]
    cases p x with
    | true => rfl
    | false =>
      rw [← ih]
      cases l.findIdx? p <;> rfl

theorem getElem?_findIdx?_getD {α : Type} (p : α → Bool) (l : List α) (i : Nat) :
    l[(l.findIdx? p).getD i]? = (l.find? p).or l[i]? := by
  have h := getElem?_findIdx? p l
  cases hi : l.findIdx? p with
  | none =>
    rw [hi] at h
    rw [← h]
    rfl
  | some j =>
    rw [hi] at h
    have hlt : j < l.length := (List.findIdx?_eq_some_iff_findIdx_eq.mp hi).1
    change l[j]? = l.find? p at h
    rw [Option.getD_some, ← h, List.getElem?_eq_getElem hlt]
    rfl

/-- The block at the index is the block `config_find_server` points to. -/
theorem configFindServerIdx_block :
    (configFindServerIdx config hostHeader).bind (config.servers[·]?)
      = configFindServer config hostHeader := by
  have hfall : config.servers[fallbackServer config.servers]?
      = (config.servers.find? (·.isDefault)).or config.servers.head? := by
    rw [fallbackServer, getElem?_findIdx?_getD, List.head?_eq_getElem?]
  unfold configFindServerIdx configFindServer
  by_cases hne : config.servers = []
  · simp [hne]
  rw [if_neg hne]
  split
  · exact hfall
  · rw [Option.bind_some, getElem?_findIdx?_getD, hfall]

end Index

/-! ## The documented rule -/

section Rule

/-- Some name of the block is the host, ASCII case aside. -/
def ServerBlock.named (host : CStr) (block : ServerBlock) : Bool :=
  block.serverNames.any fun name => name.map toLower = host.map toLower

/-- The first block named after the host, else the default block. -/
def documentedServer (servers : List ServerBlock) (host : CStr) : Nat :=
  (servers.findIdx? (·.named host)).getD (fallbackServer servers)

/-- `host_header` up to the port. -/
def hostWithoutPort (hostHeader : CStr) : CStr := hostHeader.takeWhile (· ≠ 58)

/-- No block is taken ahead of the documented one. With a `Host` header, the first block without
names comes behind the first block named after the host, or is the fallback block when there is
none. Without one, the first block that has an empty name is the fallback block. -/
def Unshadowed (servers : List ServerBlock) (hostHeader : CStr) : Prop :=
  if hostHeader = [] then
    ∀ j ∈ servers.findIdx? (·.named []), j = fallbackServer servers
  else
    ∀ i ∈ servers.findIdx? (fun block => block.serverNames = []),
      (∃ j ∈ servers.findIdx? (·.named (hostWithoutPort hostHeader)), j ≤ i) ∨
        servers.findIdx? (·.named (hostWithoutPort hostHeader)) = none ∧
          i = fallbackServer servers

instance : Decidable (Unshadowed servers hostHeader) := by
  unfold Unshadowed
  infer_instance

end Rule

/-! ## Names of a block -/

section Names

theorem strcasecmp_eq_zero_iff {s t : CStr} (hs : 0 ∉ s) (ht : 0 ∉ t) :
    strcasecmp s t = 0 ↔ t.map toLower = s.map toLower := by
  induction s generalizing t with
  | nil =>
    cases t with
    | nil => simp [strcasecmp]
    | cons b t =>
      have hb : b ≠ 0 := fun h => ht (h ▸ List.mem_cons_self)
      have hn : b.toNat ≠ 0 := fun h => hb (UInt8.toNat_inj.mp h)
      simp only [strcasecmp, List.map_cons, List.map_nil, reduceCtorEq, iff_false]
      omega
  | cons a s ih =>
    have ha : a ≠ 0 := fun h => hs (h ▸ List.mem_cons_self)
    have hn : a.toNat ≠ 0 := fun h => ha (UInt8.toNat_inj.mp h)
    cases t with
    | nil =>
      simp only [strcasecmp, List.map_cons, List.map_nil, reduceCtorEq, iff_false]
      omega
    | cons b t =>
      have ih := ih (List.not_mem_of_not_mem_cons hs) (List.not_mem_of_not_mem_cons ht)
      unfold strcasecmp
      split
      case isTrue hne =>
        have hval : (toLower a).toNat ≠ (toLower b).toNat := fun h => hne (UInt8.toNat_inj.mp h)
        simp only [List.map_cons, List.cons.injEq, Ne.symm hne, false_and, iff_false]
        omega
      case isFalse heq =>
        simp only [ne_eq, not_not] at heq
        rw [ih, List.map_cons, List.map_cons, heq]
        simp

/-- A block matches when it has no names or is named after the host. -/
theorem matchesHost_eq {host : CStr} {block : ServerBlock} (hhost : 0 ∉ host)
    (hnames : ∀ name ∈ block.serverNames, 0 ∉ name) :
    block.matchesHost host = (decide (block.serverNames = []) || block.named host) := by
  unfold ServerBlock.matchesHost ServerBlock.named
  congr 1
  rw [Bool.eq_iff_iff, List.any_eq_true, List.any_eq_true]
  refine exists_congr fun name => and_congr_right fun hname => ?_
  rw [decide_eq_true_iff, decide_eq_true_iff]
  exact strcasecmp_eq_zero_iff hhost (hnames name hname)

end Names

/-! ## The rule against the code -/

section Selection

/-- The first element with one of two properties is the earlier of the first ones with each. -/
theorem findIdx?_or {α : Type} (p q : α → Bool) (l : List α) :
    l.findIdx? (fun x => p x || q x) = Option.merge min (l.findIdx? p) (l.findIdx? q) := by
  induction l with
  | nil => rfl
  | cons x l ih =>
    simp only [List.findIdx?_cons, ih]
    cases p x <;> cases q x <;> cases l.findIdx? p <;> cases l.findIdx? q <;> simp [Option.merge]

theorem findIdx?_congr_mem {α : Type} {p q : α → Bool} {l : List α}
    (h : ∀ x ∈ l, p x = q x) : l.findIdx? p = l.findIdx? q := by
  induction l with
  | nil => rfl
  | cons x l ih =>
    rw [List.findIdx?_cons, List.findIdx?_cons, h x List.mem_cons_self,
      ih fun y hy => h y (List.mem_cons_of_mem x hy)]

/-- Where the loop over the blocks stops. -/
theorem findIdx?_matchesHost {host : CStr} (hhost : 0 ∉ host)
    (hnames : ∀ block ∈ servers, ∀ name ∈ block.serverNames, 0 ∉ name) :
    servers.findIdx? (·.matchesHost host) =
      Option.merge min (servers.findIdx? fun block => block.serverNames = [])
        (servers.findIdx? (·.named host)) := by
  rw [← findIdx?_or]
  exact findIdx?_congr_mem fun block hblock => matchesHost_eq hhost (hnames block hblock)

/-- **The block returned is the documented one** exactly if no block is taken ahead of it. -/
theorem configFindServerIdx_documented_iff (config : ServerConfig) (hostHeader : CStr)
    (hne : config.servers ≠ [])
    (hnames : ∀ block ∈ config.servers, ∀ name ∈ block.serverNames, 0 ∉ name)
    (hnul : 0 ∉ hostHeader) (hlen : hostHeader.length < 128) :
    configFindServerIdx config hostHeader
        = some (documentedServer config.servers (hostWithoutPort hostHeader)) ↔
      Unshadowed config.servers hostHeader := by
  unfold configFindServerIdx Unshadowed documentedServer
  rw [if_neg hne]
  by_cases hempty : hostHeader = []
  · subst hempty
    rw [if_pos rfl, if_pos rfl, Option.some_inj]
    change fallbackServer config.servers
      = (config.servers.findIdx? (·.named [])).getD (fallbackServer config.servers) ↔ _
    cases config.servers.findIdx? (·.named []) with
    | none => simp
    | some j => simp [eq_comm]
  have hcut : cut 128 hostHeader = hostHeader := List.take_of_length_le (by omega)
  have hhost : 0 ∉ hostWithoutPort hostHeader :=
    fun h => hnul ((List.takeWhile_prefix _).subset h)
  rw [if_neg hempty, if_neg hempty]
  simp only [hcut]
  rw [← hostWithoutPort, findIdx?_matchesHost hhost hnames, Option.some_inj]
  cases config.servers.findIdx? (fun block => block.serverNames = []) with
  | none => simp
  | some i =>
    cases config.servers.findIdx? (·.named (hostWithoutPort hostHeader)) with
    | none => simp [Option.merge]
    | some j => simp [Option.merge]

/-- A block of some names, the default one or not. -/
def namesBlock (serverNames : List CStr) (isDefault : Bool) : ServerBlock :=
  ⟨ascii "0.0.0.0", 8080, ascii "./www", [], serverNames, isDefault⟩

/-- The block without names comes last, so each host gets the documented one. -/
theorem configFindServerIdx_documented_last :
    configFindServerIdx
        ⟨[namesBlock [ascii "a.com", ascii "b.com"] true, namesBlock [] false], 65536⟩
        (ascii "B.com:8080") = some 0 := by
  have h := configFindServerIdx_documented_iff
    ⟨[namesBlock [ascii "a.com", ascii "b.com"] true, namesBlock [] false], 65536⟩
    (ascii "B.com:8080") (by simp) (by decide) (by decide) (by decide)
  exact h.mpr (by decide)

/-- The block without names is returned for a host that the next block is named after. -/
theorem nameless_shadows :
    configFindServerIdx ⟨[namesBlock [] false, namesBlock [ascii "a.com"] true], 65536⟩
        (ascii "a.com") = some 0 ∧
      documentedServer [namesBlock [] false, namesBlock [ascii "a.com"] true]
        (hostWithoutPort (ascii "a.com")) = 1 := by
  constructor <;> decide

end Selection

end MiniWeb.Config
