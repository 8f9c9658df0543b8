import MiniWeb.FrontEnd.Message

/-!
# A connection of the event loops

Both loops append what `recv` answers to the connection's buffer, read the buffer at once and
clear it, unless they close the connection. So the buffer is empty at every `recv`, and each
answer of `recv` is read on its own (`handed_perRecv`): the loops follow the boundaries of the
answers and not those of the requests. They hand on one request for each message where each
message arrives in one answer.
-/

namespace MiniWeb.FrontEnd

open CStr Config

/-- One turn of a loop on the connection: the bytes `recv` answers, none when the client closed
the connection or an error came, and whether the reply to them can be sent. -/
structure Recv where
  bytes : List UInt8
  sent : Bool
deriving DecidableEq, Repr

/-- `conn_t`: the first `recv_len` bytes of `recv_buf`, `request_count`, and `fd` not -1. -/
structure Conn where
  recvBuf : List UInt8
  requestCount : Nat
  isOpen : Bool
deriving DecidableEq, Repr

/-- A connection that was just accepted. -/
def Conn.accepted : Conn := ⟨[], 0, true⟩

def Conn.close (conn : Conn) : Conn := { conn with isOpen := false }

/-- `recv_len = 0`, the buffer cleared, and the request counted. -/
def Conn.next (conn : Conn) : Conn :=
  { conn with recvBuf := [], requestCount := conn.requestCount + 1 }

/-- `MAX_KEEP_ALIVE_REQUESTS`. -/
def maxKeepAliveRequests : Nat := 10000

/-- One turn of `epoll_server_run`: the connection after it, and the request handed on. -/
def epollRecv (config : Option ServerConfig) (conn : Conn) (recv : Recv) : Conn × Option Request :=
  if !conn.isOpen then (conn, none)
  else if recv.bytes = [] then (conn.close, none)
  else
    match epollRead config (conn.recvBuf ++ recv.bytes) with
    | .tooLarge | .malformed => (conn.close, none)
    -- the request count is not compared after an echo
    | .echo _ => (conn.next, none)
    | .request req =>
      if !recv.sent || maxKeepAliveRequests ≤ conn.requestCount + 1 || !req.keepAlive then
        (conn.close, some req)
      else (conn.next, some req)

/-- One turn of `select_server_run`. -/
def selectRecv (conn : Conn) (recv : Recv) : Conn × Option Request :=
  if !conn.isOpen then (conn, none)
  else if recv.bytes = [] then (conn.close, none)
  else
    match selectRead (conn.recvBuf ++ recv.bytes) with
    | .request req =>
      if !recv.sent || maxKeepAliveRequests ≤ conn.requestCount + 1 then (conn.close, some req)
      else (conn.next, some req)
    | _ => (conn.close, none)

/-- The requests handed on in a run of turns. -/
def handed (turn : Conn → Recv → Conn × Option Request) : Conn → List Recv → List Request
  | _, [] => []
  | conn, recv :: recvs =>
    let (conn, req) := turn conn recv
    req.toList ++ handed turn conn recvs

def epollHanded (config : Option ServerConfig) (recvs : List Recv) : List Request :=
  handed (epollRecv config) .accepted recvs

def selectHanded (recvs : List Recv) : List Request := handed selectRecv .accepted recvs

/-! ## Every answer on its own -/

/-- The requests in the answers of `recv`, each read alone, up to the one that closes the
connection; `count` of them were read before. -/
def epollEach (config : Option ServerConfig) : Nat → List Recv → List Request
  | _, [] => []
  | count, recv :: recvs =>
    if recv.bytes = [] then []
    else
      match epollRead config recv.bytes with
      | .tooLarge | .malformed => []
      | .echo _ => epollEach config (count + 1) recvs
      | .request req =>
        req :: if recv.sent ∧ count + 1 < maxKeepAliveRequests ∧ req.keepAlive then
          epollEach config (count + 1) recvs else []

def selectEach : Nat → List Recv → List Request
  | _, [] => []
  | count, recv :: recvs =>
    if recv.bytes = [] then []
    else
      match selectRead recv.bytes with
      | .request req =>
        req :: if recv.sent ∧ count + 1 < maxKeepAliveRequests then
          selectEach (count + 1) recvs else []
      | _ => []

/-- Nothing is handed over on a closed connection. -/
theorem handed_closed {turn : Conn → Recv → Conn × Option Request} {conn : Conn}
    (hturn : ∀ recv, turn conn recv = (conn, none)) (recvs : List Recv) :
    handed turn conn recvs = [] := by
  induction recvs with
  | nil => rfl
  | cons recv recvs ih =>
    rw [handed, hturn]
    exact ih

/-- An open connection with an empty buffer hands on what the answers hold, each on its own. -/
theorem handed_epoll (config : Option ServerConfig) (count : Nat) (recvs : List Recv) :
    handed (epollRecv config) ⟨[], count, true⟩ recvs = epollEach config count recvs := by
  induction recvs generalizing count with
  | nil => rfl
  | cons recv recvs ih =>
    have hclosed : handed (epollRecv config) (Conn.mk [] count true).close recvs = [] :=
      handed_closed (fun _ => rfl) recvs
    have hnext : handed (epollRecv config) (Conn.mk [] count true).next recvs
        = epollEach config (count + 1) recvs := ih (count + 1)
    rw [handed, epollRecv, epollEach]
    by_cases hbytes : recv.bytes = []
    · simp [hbytes, hclosed]
    · simp only [hbytes, if_false, List.nil_append, Bool.not_true, Bool.false_eq_true]
      cases hread : epollRead config recv.bytes with
      | tooLarge => simp [hclosed]
      | malformed => simp [hclosed]
      | echo line => simp [hnext]
      | request req =>
        by_cases hgo : recv.sent ∧ count + 1 < maxKeepAliveRequests ∧ req.keepAlive
        · obtain ⟨hsent, hcount, hkeep⟩ := hgo
          simp [hsent, hkeep, hnext, hcount, Nat.not_le.2 hcount]
        · have hstop : (!recv.sent || decide (maxKeepAliveRequests ≤ count + 1) || !req.keepAlive)
              = true := by
            simp only [Bool.or_eq_true, Bool.not_eq_true', decide_eq_true_eq]
            by_contra h
            simp only [not_or, Bool.not_eq_false, Nat.not_le] at h
            exact hgo ⟨h.1.1, h.1.2, h.2⟩
          simp only [if_neg hgo, hstop, if_true, hclosed]
          rfl

theorem handed_select (count : Nat) (recvs : List Recv) :
    handed selectRecv ⟨[], count, true⟩ recvs = selectEach count recvs := by
  induction recvs generalizing count with
  | nil => rfl
  | cons recv recvs ih =>
    have hclosed : handed selectRecv (Conn.mk [] count true).close recvs = [] :=
      handed_closed (fun _ => rfl) recvs
    have hnext : handed selectRecv (Conn.mk [] count true).next recvs
        = selectEach (count + 1) recvs := ih (count + 1)
    rw [handed, selectRecv, selectEach]
    by_cases hbytes : recv.bytes = []
    · simp [hbytes, hclosed]
    · simp only [hbytes, if_false, List.nil_append, Bool.not_true, Bool.false_eq_true]
      cases hread : selectRead recv.bytes with
      | tooLarge => simp [hclosed]
      | malformed => simp [hclosed]
      | echo line => simp [hclosed]
      | request req =>
        by_cases hgo : recv.sent ∧ count + 1 < maxKeepAliveRequests
        · obtain ⟨hsent, hcount⟩ := hgo
          simp [hsent, hnext, hcount, Nat.not_le.2 hcount]
        · have hstop : (!recv.sent || decide (maxKeepAliveRequests ≤ count + 1)) = true := by
            simp only [Bool.or_eq_true, Bool.not_eq_true', decide_eq_true_eq]
            by_contra h
            simp only [not_or, Bool.not_eq_false, Nat.not_le] at h
            exact hgo h
          simp only [if_neg hgo, hstop, if_true, hclosed]
          rfl

/-! ## A message in each answer -/

/-- What the two loops read of a request. -/
structure RequestKey where
  method : CStr
  path : CStr
  body : CStr
deriving DecidableEq, Repr

def Request.key (req : Request) : RequestKey := ⟨req.method, req.path, req.body⟩

def HttpMessage.key (msg : HttpMessage) : RequestKey := ⟨msg.method, msg.path, msg.keptBody⟩

/-- The list up to and including the first element with the property. -/
def takeThrough {α : Type*} (p : α → Bool) : List α → List α
  | [] => []
  | a :: s => a :: if p a then [] else takeThrough p s

/-- Every message arrives in one answer of `recv`, and every reply can be sent. -/
def OnePerRecv (msgs : List HttpMessage) (recvs : List Recv) : Prop :=
  recvs = msgs.map fun msg => ⟨msg.render, true⟩

theorem render_ne_nil (msg : HttpMessage) : msg.render ≠ [] := by
  obtain ⟨rest, hrest⟩ := render_eq msg
  simp [hrest]

theorem epollEach_render {config : Option ServerConfig} {msgs : List HttpMessage}
    (hfits : ∀ msg ∈ msgs, msg.Fits config) {count : Nat} (hcount : count < maxKeepAliveRequests) :
    (epollEach config count (msgs.map fun msg => ⟨msg.render, true⟩)).map Request.key
      = (takeThrough (fun msg => !keepAlive msg.render)
          (msgs.take (maxKeepAliveRequests - count))).map HttpMessage.key := by
  induction msgs generalizing count with
  | nil => simp [epollEach, takeThrough]
  | cons msg msgs ih =>
    obtain ⟨k, hk⟩ : ∃ k, maxKeepAliveRequests - count = k + 1 :=
      ⟨maxKeepAliveRequests - (count + 1), by omega⟩
    rw [List.map_cons, epollEach, if_neg (render_ne_nil msg),
      epollRead_render (hfits msg (List.mem_cons_self ..)), hk, List.take_succ_cons, takeThrough]
    simp only [List.map_cons]
    congr 1
    cases hkeep : keepAlive msg.render with
    | false => simp
    | true =>
      by_cases hlast : count + 1 < maxKeepAliveRequests
      · have hih := ih (fun m hm => hfits m (List.mem_cons_of_mem _ hm)) hlast
        have hk' : maxKeepAliveRequests - (count + 1) = k := by omega
        rw [hk'] at hih
        simp [hlast, hih]
      · have hk0 : k = 0 := by omega
        simp [hlast, hk0, takeThrough]

theorem selectEach_render {config : Option ServerConfig} {msgs : List HttpMessage}
    (hfits : ∀ msg ∈ msgs, msg.Fits config) {count : Nat} (hcount : count < maxKeepAliveRequests) :
    (selectEach count (msgs.map fun msg => ⟨msg.render, true⟩)).map Request.key
      = (msgs.take (maxKeepAliveRequests - count)).map HttpMessage.key := by
  induction msgs generalizing count with
  | nil => simp [selectEach]
  | cons msg msgs ih =>
    obtain ⟨k, hk⟩ : ∃ k, maxKeepAliveRequests - count = k + 1 :=
      ⟨maxKeepAliveRequests - (count + 1), by omega⟩
    rw [List.map_cons, selectEach, if_neg (render_ne_nil msg),
      selectRead_render (hfits msg (List.mem_cons_self ..)), hk, List.take_succ_cons]
    simp only [List.map_cons]
    congr 1
    by_cases hlast : count + 1 < maxKeepAliveRequests
    · have hih := ih (fun m hm => hfits m (List.mem_cons_of_mem _ hm)) hlast
      have hk' : maxKeepAliveRequests - (count + 1) = k := by omega
      rw [hk'] at hih
      simp [hlast, hih]
    · have hk0 : k = 0 := by omega
      simp [hlast, hk0]

/-- For every sequence of answers of `recv` on a connection: each loop hands on the requests of
the answers, each answer read on its own, up to the one that closes the connection. Where each
message of a list arrives in one answer, these are the messages in order: with `epoll` up to the
first that asks to close the connection, with either up to the limit for a connection. -/
theorem handed_perRecv (config : Option ServerConfig) (recvs : List Recv) :
    epollHanded config recvs = epollEach config 0 recvs ∧
      selectHanded recvs = selectEach 0 recvs ∧
      ∀ msgs, (∀ msg ∈ msgs, msg.Fits config) → OnePerRecv msgs recvs →
        (epollHanded config recvs).map Request.key
            = (takeThrough (fun msg => !keepAlive msg.render)
                (msgs.take maxKeepAliveRequests)).map HttpMessage.key ∧
          (selectHanded recvs).map Request.key
            = (msgs.take maxKeepAliveRequests).map HttpMessage.key := by
  have hepoll : epollHanded config recvs = epollEach config 0 recvs := handed_epoll config 0 recvs
  have hselect : selectHanded recvs = selectEach 0 recvs := handed_select 0 recvs
  refine ⟨hepoll, hselect, ?_⟩
  intro msgs hfits hone
  have hpos : 0 < maxKeepAliveRequests := by decide
  rw [hepoll, hselect, hone]
  exact ⟨epollEach_render hfits hpos, selectEach_render hfits hpos⟩

/-- A request to add a user. -/
def addMessage : HttpMessage where
  method := ascii "POST"
  path := ascii "/users"
  version := ascii "HTTP/1.1"
  headers := [ascii "Host: a", ascii "Content-Length: 6"]
  body := ascii "bob,20"
  method_mem := by decide
  path_ne_nil := by decide
  path_word := by decide
  version_line := by decide
  headers_line := by decide

theorem addMessage_fits : addMessage.Fits none := by
  constructor <;> decide +kernel

theorem handed_perRecv_addMessage :
    (epollHanded none [⟨addMessage.render, true⟩, ⟨addMessage.render, true⟩]).map Request.key
      = [addMessage.key, addMessage.key] := by
  have h := ((handed_perRecv none [⟨addMessage.render, true⟩, ⟨addMessage.render, true⟩]).2.2
    [addMessage, addMessage] (by simp [addMessage_fits]) rfl).1
  rw [h]
  decide +kernel

/-- The keys handed on are the messages', one for one. -/
def StreamIndependent (config : Option ServerConfig) (msgs : List HttpMessage)
    (recvs : List Recv) : Prop :=
  (epollHanded config recvs).map Request.key = msgs.map HttpMessage.key ∧
    (selectHanded recvs).map Request.key = msgs.map HttpMessage.key

/-- One message in two answers of `recv` loses its body, two messages in one answer become one
request. -/
theorem split_not_streamIndependent :
    addMessage.Fits none ∧
      ascii "POST /users HTTP/1.1\r\nHost: a\r\nContent-Length: 6\r\n\r\n" ++ ascii "bob,20"
        = addMessage.render ∧
      ¬StreamIndependent none [addMessage]
        [⟨ascii "POST /users HTTP/1.1\r\nHost: a\r\nContent-Length: 6\r\n\r\n", true⟩,
          ⟨ascii "bob,20", true⟩] ∧
      ¬StreamIndependent none [addMessage, addMessage]
        [⟨addMessage.render ++ addMessage.render, true⟩] := by
  refine ⟨by constructor <;> decide +kernel, by decide +kernel, ?_, ?_⟩
  · rintro ⟨hepoll, -⟩
    exact absurd hepoll (by decide +kernel)
  · rintro ⟨hepoll, -⟩
    exact absurd hepoll (by decide +kernel)

end MiniWeb.FrontEnd
