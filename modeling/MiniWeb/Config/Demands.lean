import MiniWeb.Config.RouteList

/-!
# What a loader asks for

A loader comes by servers and routes one after the other and asks for room for each. It gives up at
a seventeenth server, at a route that cannot be added, and at a definition that it finds wrong.
Whether it gives up is a matter of all that it asks for, and does not depend on the order.
-/

namespace MiniWeb.Config

open CStr Routing

/-- Two runs that agree on what is looked at fail alike or come out alike. -/
theorem map_eq_cases {α β γ : Type} {x : Loaded α} {y : Loaded β} {f : α → γ} {g : β → γ}
    (h : x.map f = y.map g) :
    (∃ e, x = .error e ∧ y = .error e) ∨ ∃ a b, x = .ok a ∧ y = .ok b ∧ f a = g b := by
  cases x with
  | error e =>
    cases y with
    | error e' =>
      cases h
      exact Or.inl ⟨e, rfl, rfl⟩
    | ok b => cases h
  | ok a =>
    cases y with
    | error e => cases h
    | ok b => exact Or.inr ⟨a, b, rfl, rfl, Except.ok.inj h⟩

/-- The number of servers and the routes of a configuration. -/
def LoadedConfig.summary (config : LoadedConfig) : Nat × RouteTable :=
  (config.servers.length, config.routeTable)

theorem summary_add (config : LoadedConfig) (block : ServerBlock) (rt : RouteTable) :
    (⟨config.settings, config.servers ++ [block], rt⟩ : LoadedConfig).summary =
      (config.servers.length + 1, rt) := by
  rw [LoadedConfig.summary, List.length_append, List.length_singleton]

inductive Demand
  | server
  | routes (rs : List Route)
  /-- A definition that the loader refuses. -/
  | wrong

def Demand.isServer : Demand → Bool
  | .server => true
  | _ => false

def Demand.isWrong : Demand → Bool
  | .wrong => true
  | _ => false

def Demand.routeList : Demand → List Route
  | .routes rs => rs
  | _ => []

/-- The routes can be told apart in a table and have handlers. -/
def Demand.Fits (d : Demand) : Prop := ∀ r ∈ d.routeList, RouteFits r ∧ r.handler ≠ .none

/-- What a loader does for a demand, with the number of servers and the routes so far. -/
def meet : Demand → Nat × RouteTable → Loaded (Nat × RouteTable)
  | .server, (n, rt) => if maxServerBlocks ≤ n then .error .refused else .ok (n + 1, rt)
  | .routes rs, (n, rt) => (rs.foldlM (fun rt r => addRoute r rt) rt).map fun rt => (n, rt)
  | .wrong, _ => .error .refused

def meets (ds : List Demand) (state : Nat × RouteTable) : Loaded (Nat × RouteTable) :=
  ds.foldlM (fun state d => meet d state) state

/-- All that the demands ask for is right and there is room for it. -/
structure Acceptable (ds : List Demand) : Prop where
  servers : ds.countP Demand.isServer ≤ maxServerBlocks
  right : ∀ d ∈ ds, d.isWrong = false
  addable : Addable (ds.flatMap Demand.routeList)

/-- What a loader has after acceptable demands. -/
structure Served (ds : List Demand) (state : Nat × RouteTable) : Prop where
  servers : state.1 = ds.countP Demand.isServer
  holds : Holds (ds.flatMap Demand.routeList) state.2
  acceptable : Acceptable ds

variable {ds es : List Demand} {d : Demand} {state : Nat × RouteTable}

@[simp] theorem meets_nil : meets [] state = .ok state := rfl

theorem meets_cons : meets (d :: ds) state = (meet d state).bind (meets ds) := rfl

theorem meets_append : meets (ds ++ es) state = (meets ds state).bind (meets es) :=
  List.foldlM_append

theorem Acceptable.of_append (h : Acceptable (ds ++ es)) : Acceptable ds where
  servers := by
    have hservers := h.servers
    rw [List.countP_append] at hservers
    omega
  right := fun d hd => h.right d (List.mem_append_left _ hd)
  addable := by
    have haddable := h.addable
    rw [List.flatMap_append] at haddable
    exact haddable.of_append

theorem served_nil : Served [] (0, routeTableInit) where
  servers := rfl
  holds := holds_init
  acceptable := ⟨Nat.zero_le _, List.forall_mem_nil _, addable_nil⟩

theorem flatMap_concat (ds : List Demand) (d : Demand) :
    (ds ++ [d]).flatMap Demand.routeList = ds.flatMap Demand.routeList ++ d.routeList := by
  rw [List.flatMap_append, List.flatMap_singleton]

/-- One demand is met, or it makes what is asked for unacceptable. -/
theorem Served.meet (h : Served ds state)
    (hfits : ∀ r ∈ (ds ++ [d]).flatMap Demand.routeList, RouteFits r) :
    (¬Acceptable (ds ++ [d]) ∧ Config.meet d state = .error .refused) ∨
      ∃ state', Config.meet d state = .ok state' ∧ Served (ds ++ [d]) state' := by
  obtain ⟨n, rt⟩ := state
  rw [flatMap_concat] at hfits
  cases d with
  | server =>
    have hcount : (ds ++ [Demand.server]).countP Demand.isServer = n + 1 := by
      rw [List.countP_append, ← h.servers]
      rfl
    have hroutes : (ds ++ [Demand.server]).flatMap Demand.routeList = ds.flatMap Demand.routeList :=
      (flatMap_concat ds .server).trans (List.append_nil _)
    by_cases hfull : maxServerBlocks ≤ n
    · refine Or.inl ⟨fun hall => ?_, if_pos hfull⟩
      have hservers := hall.servers
      omega
    · refine Or.inr ⟨(n + 1, rt), if_neg hfull, hcount.symm, hroutes ▸ h.holds, ?_⟩
      refine ⟨by omega, ?_, hroutes ▸ h.acceptable.addable⟩
      rw [List.forall_mem_append, List.forall_mem_singleton]
      exact ⟨h.acceptable.right, rfl⟩
  | routes rs =>
    have hroutes := flatMap_concat ds (.routes rs)
    rcases foldlM_addRoute h.holds h.acceptable.addable hfits with
      ⟨hadd, t, hok, hholds⟩ | ⟨hnot, herror⟩
    · refine Or.inr ⟨(n, t), ?_, ?_, hroutes ▸ hholds, ?_, ?_, hroutes ▸ hadd⟩
      · exact congrArg (Except.map fun rt => (n, rt)) hok
      · rw [List.countP_append, ← h.servers]
        rfl
      · rw [List.countP_append]
        exact h.acceptable.servers
      · rw [List.forall_mem_append, List.forall_mem_singleton]
        exact ⟨h.acceptable.right, rfl⟩
    · refine Or.inl ⟨fun hall => hnot (hroutes ▸ hall.addable), ?_⟩
      exact congrArg (Except.map fun rt => (n, rt)) herror
  | wrong =>
    refine Or.inl ⟨fun hall => ?_, rfl⟩
    exact Bool.noConfusion (hall.right .wrong (List.mem_append_right _ (List.mem_singleton_self _)))

/-- The demands are acceptable and met, or they are refused. -/
theorem Served.meets (h : Served ds state)
    (hfits : ∀ r ∈ (ds ++ es).flatMap Demand.routeList, RouteFits r) :
    (∃ state', Config.meets es state = .ok state' ∧ Served (ds ++ es) state') ∨
      (¬Acceptable (ds ++ es) ∧ Config.meets es state = .error .refused) := by
  induction es generalizing ds state with
  | nil =>
    rw [List.append_nil]
    exact Or.inl ⟨state, rfl, h⟩
  | cons e es ih =>
    have hcons : ds ++ e :: es = ds ++ [e] ++ es := List.append_cons ..
    rw [hcons] at hfits ⊢
    have hfirst : ∀ r ∈ (ds ++ [e]).flatMap Demand.routeList, RouteFits r := by
      rw [List.flatMap_append, List.forall_mem_append] at hfits
      exact hfits.1
    rw [meets_cons]
    rcases h.meet hfirst with ⟨hnot, herror⟩ | ⟨state', hok, hserved⟩
    · rw [herror]
      exact Or.inr ⟨fun hall => hnot hall.of_append, rfl⟩
    · rw [hok]
      exact ih hserved hfits

/-- A loader starts with nothing, and ends with all that is asked for or refuses it. -/
theorem meets_cases (hfits : ∀ r ∈ ds.flatMap Demand.routeList, RouteFits r) :
    (∃ state, meets ds (0, routeTableInit) = .ok state ∧ Served ds state) ∨
      (¬Acceptable ds ∧ meets ds (0, routeTableInit) = .error .refused) := by
  have hall : ∀ r ∈ ([] ++ ds).flatMap Demand.routeList, RouteFits r := hfits
  exact served_nil.meets hall

end MiniWeb.Config
