import MiniWeb.RequestHandler.UrlCoding
import MiniWeb.RequestHandler.SameOutcome

/-!
# The object a captured name is in

Six handlers decode the captured text in place. What they decode is the array `captured`, or the
literal `""` when nothing was captured, and `url_decode_path` writes its NUL into either. Nothing
is captured exactly if the pattern of the route is the whole path.
-/

namespace MiniWeb.RequestHandler

open Loop CStr Buffer SessionStore UserStore Routing

/-! ## Objects -/

/-- An object of the program: an array of the stack or a static one, or a string literal. -/
structure Object where
  bytes : List UInt8
  readOnly : Bool
deriving DecidableEq, Repr

/-- A write to the object; a string literal cannot be written to. -/
def Object.put (o : Object) (buf : List UInt8) (i : Nat) (c : UInt8) : Option (List UInt8) :=
  if o.readOnly then none else store buf i c

/-- `(captured && captured[0]) ? captured : ""`. -/
def nameObject (captured : CStr) : Object :=
  if captured ≠ [] then ⟨captured ++ [0], false⟩ else ⟨[0], true⟩

/-- The name after `url_decode_path((char *)name)`. -/
def decodedName (o : Object) : Option CStr := (urlDecodePathOn o.put o.bytes).map ofBuffer

/-! ## The six handlers -/

/-- The handlers that decode a captured name. -/
def decodesName (handler : HandlerType) : Bool :=
  handler ∈ [.userFindIndex, .userCompareVerbose, .userCompare, .userByName, .userSimpleFind,
    .userDelete]

/-- The reply of such a handler to a decoded name. -/
def nameReply (console : Console) (handler : HandlerType) (name : CStr) (s : Store) :
    Option (Outcome × Store) :=
  match handler with
  | .userFindIndex => reportUser name s (userStoreFindIndex s name)
  | .userCompareVerbose => compareReply console true name s
  | .userCompare => compareReply console false name s
  | .userDelete => deleteUser name s
  | _ =>
    if name = [] then some (.error (ascii "ERROR: empty user name\n"), s)
    else reportUser name s (userStoreFind s.shm name)

/-- The status of a reply of these handlers. -/
def replyStatus : Outcome → Nat
  | .error _ => 400
  | .notFound _ => 404
  | .noSuchUser => 404
  | .internalServerError => 500
  | _ => 200

/-- The documented replies: 200, 404, to an empty name 400, and 500 where a system call fails. -/
def DocumentedReply (console : Console) (name : CStr) (o : Outcome) : Prop :=
  o ≠ .undefined ∧
    (replyStatus o = 200 ∨ replyStatus o = 404 ∨ replyStatus o = 400 ∧ name = [] ∨
      replyStatus o = 500 ∧ ¬(console.pipes = true ∧ console.reads = true))

section

variable {console : Console} {handler : HandlerType} {captured name : CStr} {s : Store}
  {req : BodyRequest}

/-- Into a literal nothing is decoded: the first write is refused. -/
theorem decodedName_readOnly {o : Object} (h : o.readOnly = true) : decodedName o = none := by
  have hstep : ∀ cursor : PathCursor, urlDecodePathStep o.put cursor = none := by
    intro cursor
    have hput : ∀ buf i c, o.put buf i c = none := fun buf i c => if_pos h
    rw [urlDecodePathStep]
    simp only [hput, Option.bind_eq_bind, Option.bind_none]
    cases load cursor.buf cursor.p with
    | none => rfl
    | some c =>
      by_cases hc : c = 0
      · simp [hc]
      · simp only [Option.bind_some, if_neg hc]
        cases escapeAt cursor.buf cursor.p with
        | none => rfl
        | some escape => cases escape <;> simp
  have hrun : run (pass (urlDecodePathStep o.put)) (o.bytes.length + 1) ⟨o.bytes, 0, 0⟩
      = some none := run_pass_none (hstep _)
  rw [decodedName, urlDecodePathOn, hrun]
  rfl

/-- Into an array the captured text is decoded. -/
theorem decodedName_captured (hne : captured ≠ []) (hnul : 0 ∉ captured) :
    decodedName (nameObject captured) = some (urlDecodePath captured) := by
  have hobject : nameObject captured = ⟨captured ++ [0], false⟩ := if_pos hne
  have hput : (⟨captured ++ [0], false⟩ : Object).put = store := by
    funext buf i c
    exact if_neg Bool.false_ne_true
  rw [decodedName, hobject, hput]
  exact urlDecodePathIn_string hnul

/-- The handlers on the object: a refused write is the outcome `undefined`. -/
theorem callHandlerFn_name (h : decodesName handler = true) (hnul : 0 ∉ captured) :
    callHandlerFn console handler req captured s =
      match decodedName (nameObject captured) with
      | some name => nameReply console handler name s
      | none => some (.undefined, s) := by
  have hname : callHandlerFn console handler req captured s =
      withName captured s fun name => nameReply console handler name s := by
    simp only [decodesName, List.mem_cons, List.not_mem_nil, or_false, decide_eq_true_eq] at h
    rcases h with rfl | rfl | rfl | rfl | rfl | rfl <;> rfl
  rw [hname]
  by_cases hnil : captured = []
  · rw [hnil, withName_nil, decodedName_readOnly rfl]
  · rw [withName_of_ne hnil, decodedName_captured hnil hnul]

theorem documentedReply_ok {o : Outcome} (hne : o ≠ .undefined) (h : replyStatus o = 200) :
    DocumentedReply console name o := ⟨hne, .inl h⟩

theorem documentedReply_empty {text : CStr} (h : name = []) :
    DocumentedReply console name (.error text) := ⟨nofun, .inr (.inr (.inl ⟨rfl, h⟩))⟩

theorem reportUser_documented {found : Option Off} {o : Outcome} {s' : Store}
    (h : reportUser name s found = some (o, s')) : DocumentedReply console name o := by
  obtain ⟨user, -, hpair⟩ := Option.map_eq_some_iff.mp h
  obtain ⟨rfl, -⟩ := Prod.mk.inj hpair
  by_cases huser : user ≠ 0
  · rw [if_pos huser]
    exact documentedReply_ok nofun rfl
  · rw [if_neg huser]
    exact ⟨nofun, .inr (.inl rfl)⟩

theorem compareReply_documented {verbose : Bool} {o : Outcome} {s' : Store}
    (h : compareReply console verbose name s = some (o, s')) :
    DocumentedReply console name o := by
  obtain ⟨body, hbody, hpair⟩ := Option.map_eq_some_iff.mp h
  obtain ⟨rfl, -⟩ := Prod.mk.inj hpair
  cases body with
  | some body => exact documentedReply_ok nofun rfl
  | none =>
    refine ⟨nofun, .inr (.inr (.inr ⟨rfl, fun ⟨hpipes, hreads⟩ => ?_⟩))⟩
    rw [captureStdout, if_neg (not_not_intro hpipes), if_neg (not_not_intro hreads)] at hbody
    split at hbody <;> cases hbody

theorem nameReply_status {o : Outcome} {s' : Store}
    (h : nameReply console handler name s = some (o, s')) : DocumentedReply console name o := by
  unfold nameReply at h
  split at h
  · exact reportUser_documented h
  · exact compareReply_documented h
  · exact compareReply_documented h
  · unfold deleteUser at h
    by_cases hnil : name = []
    · rw [if_pos hnil] at h
      cases h
      exact documentedReply_empty hnil
    · rw [if_neg hnil] at h
      obtain ⟨⟨ret, t⟩, -, hpair⟩ := Option.map_eq_some_iff.mp h
      obtain ⟨rfl, -⟩ := Prod.mk.inj hpair
      by_cases hret : ret = 0
      · simp only [if_pos hret]
        exact documentedReply_ok nofun rfl
      · simp only [if_neg hret]
        exact ⟨nofun, .inr (.inl rfl)⟩
  · by_cases hnil : name = []
    · rw [if_pos hnil] at h
      cases h
      exact documentedReply_empty hnil
    · rw [if_neg hnil] at h
      exact reportUser_documented h

end

/-! ## The route that captures -/

section

variable {rt : RouteTable} {creds : Credentials} {req : Request} {now : Int}
  {sessions sessions' : Table} {e e' : RouteEntry} {captured captured' : CStr}

theorem callHandler_captured (h : callHandler e captured = .invoke e' captured') :
    e' = e ∧ captured' = captured := by
  unfold callHandler at h
  split at h
  · cases h
    exact ⟨rfl, rfl⟩
  · cases h

theorem checkRole_captured {result : RoleResult}
    (h : checkRole e req captured result = .invoke e' captured') :
    e' = e ∧ captured' = captured := by
  cases result with
  | badBase64 => cases h
  | noRole =>
    rw [checkRole] at h
    split at h
    · cases h
    · cases h
  | role r =>
    rw [checkRole] at h
    split at h
    · exact callHandler_captured h
    · cases h

theorem authGate_captured
    (h : authGate e req captured creds now sessions = some (.invoke e' captured', sessions')) :
    e' = e ∧ captured' = captured := by
  obtain ⟨⟨role, t⟩, -, hrest⟩ := Option.bind_eq_some_iff.mp h
  cases role with
  | some r => exact checkRole_captured (Prod.mk.inj (Option.some.inj hrest)).1
  | none =>
    obtain ⟨result, -, hpair⟩ := Option.map_eq_some_iff.mp hrest
    exact checkRole_captured (Prod.mk.inj hpair).1

/-- A handler is called for the route found, with what it captured. -/
theorem invoke_found
    (h : requestHandlerProcessHttp rt creds req now sessions
      = some (.invoke e captured, sessions')) :
    ∃ result, routeTableFind rt req.method req.path = some result ∧ result.entry = some e ∧
      result.captured = captured := by
  obtain ⟨result, hfind, hrest⟩ := Option.bind_eq_some_iff.mp h
  refine ⟨result, hfind, ?_⟩
  split at hrest
  · cases hrest
  cases hentry : result.entry with
  | none =>
    rw [hentry] at hrest
    cases hrest
  | some a =>
    rw [hentry] at hrest
    simp only at hrest
    split at hrest
    · obtain ⟨rfl, rfl⟩ := authGate_captured hrest
      exact ⟨rfl, rfl⟩
    · obtain ⟨rfl, rfl⟩ := callHandler_captured (Prod.mk.inj (Option.some.inj hrest)).1
      exact ⟨rfl, rfl⟩

/-- Nothing is captured exactly if the pattern is the whole path. -/
theorem captured_eq_nil_iff (hrt : Built rt) (hlen : req.path.length < 256)
    (h : requestHandlerProcessHttp rt creds req now sessions
      = some (.invoke e captured, sessions')) :
    captured = [] ↔ e.path = req.path := by
  obtain ⟨result, hfind, hentry, rfl⟩ := invoke_found h
  obtain ⟨-, -, ⟨-, hpath, hnil⟩ | ⟨hsplit, -⟩⟩ := find_sound hrt hlen hfind hentry
  · exact iff_of_true hnil hpath
  · constructor
    · intro hnil
      rwa [hnil, List.append_nil] at hsplit
    · intro hpath
      rw [hpath] at hsplit
      exact List.append_right_eq_self.mp hsplit

/-- What is captured is an end of the path. -/
theorem notMem_captured (hrt : Built rt) (hlen : req.path.length < 256) (hnul : 0 ∉ req.path)
    (h : requestHandlerProcessHttp rt creds req now sessions
      = some (.invoke e captured, sessions')) : 0 ∉ captured := by
  obtain ⟨result, hfind, hentry, rfl⟩ := invoke_found h
  obtain ⟨-, -, ⟨-, -, hnil⟩ | ⟨hsplit, -⟩⟩ := find_sound hrt hlen hfind hentry
  · rw [hnil]
    exact List.not_mem_nil
  · exact fun hmem => hnul (hsplit ▸ List.mem_append_right _ hmem)

end

/-- What is wanted when such a handler is called: the object it decodes in can be written to, and
it answers with its reply to the decoded name, which is 400 for an empty name only and 500 only where
a system call fails. -/
def DecodesInPlace (console : Console) (e : RouteEntry) (captured : CStr) (req : BodyRequest)
    (s : Store) : Prop :=
  (nameObject captured).readOnly = false ∧
    callHandlerFn console e.handler req captured s =
      nameReply console e.handler (urlDecodePath captured) s ∧
    ∀ o s', callHandlerFn console e.handler req captured s = some (o, s') →
      DocumentedReply console (urlDecodePath captured) o

/-- **A captured name is decoded in a writable object** exactly if the pattern of the route is not
the whole path. This holds for every route table and request, and each call of one of the six
handlers. -/
theorem decodesInPlace_iff (console : Console) (routes : List Route) (req : BodyRequest)
    (hnul : 0 ∉ req.path) :
    ∃ rt, addRoutes routes routeTableInit = some rt ∧
      ∀ creds now sessions e captured sessions' s,
        requestHandlerProcessHttp rt creds req.toRequest now sessions
          = some (.invoke e captured, sessions') → decodesName e.handler = true →
        (DecodesInPlace console e captured req s ↔ e.path ≠ req.path) := by
  obtain ⟨rt, hrt, hbuilt⟩ := addRoutes_built routes built_init
  refine ⟨rt, hrt, fun creds now sessions e captured sessions' s hcall hdecodes => ?_⟩
  have hpath := captured_eq_nil_iff hbuilt req.pathFits hcall
  have hcaptured := notMem_captured hbuilt req.pathFits hnul hcall
  constructor
  · rintro ⟨hwritable, -⟩ heq
    rw [hpath.mpr heq] at hwritable
    cases hwritable
  · intro hne
    have hsome : captured ≠ [] := fun hnil => hne (hpath.mp hnil)
    have hobject : nameObject captured = ⟨captured ++ [0], false⟩ := if_pos hsome
    have hreply : callHandlerFn console e.handler req captured s
        = nameReply console e.handler (urlDecodePath captured) s := by
      rw [callHandlerFn_name hdecodes hcaptured, decodedName_captured hsome hcaptured]
    refine ⟨by rw [hobject], hreply, fun o s' h => ?_⟩
    rw [hreply] at h
    exact nameReply_status h

theorem userPath_fits : (ascii "/users/b%6Fb").length < 256 := by decide

/-- A request for a user. -/
def getUser : BodyRequest :=
  ⟨⟨ascii "GET", ascii "/users/b%6Fb", [], []⟩, [], userPath_fits⟩

theorem decodesInPlace_bob :
    ∃ rt, addRoutes (defaultExact ++ defaultPrefixes) routeTableInit = some rt ∧
      ∀ creds now sessions e captured sessions' s,
        requestHandlerProcessHttp rt creds getUser.toRequest now sessions
          = some (.invoke e captured, sessions') → decodesName e.handler = true →
        (DecodesInPlace linuxConsole e captured getUser s ↔ e.path ≠ ascii "/users/b%6Fb") :=
  decodesInPlace_iff linuxConsole (defaultExact ++ defaultPrefixes) getUser (by decide)

theorem usersBelow_fits : (ascii "/users/").length < 256 := by decide

/-- A request for a user without a name. -/
def deleteNobody : BodyRequest :=
  ⟨⟨ascii "DELETE", ascii "/users/", [], []⟩, [], usersBelow_fits⟩

/-- With the default routes `DELETE /users/` calls `handle_user_delete`, which writes to the
literal. -/
theorem literal_written :
    ((routeTablePopulateDefaults routeTableInit).bind fun rt =>
        (requestHandlerProcessHttp rt ⟨[], none⟩ deleteNobody.toRequest 0 sessionInit).map
          fun r => r.1) =
      some (.invoke (publicPrefix "DELETE" "/users/" .userDelete).entry []) ∧
    (nameObject []).readOnly = true ∧ decodedName (nameObject []) = none ∧
    ∀ console s, callHandlerFn console .userDelete deleteNobody [] s = some (.undefined, s) := by
  refine ⟨by decide +kernel, rfl, decodedName_readOnly rfl, fun console s => ?_⟩
  rw [callHandlerFn_name rfl List.not_mem_nil, decodedName_readOnly rfl]

end MiniWeb.RequestHandler
