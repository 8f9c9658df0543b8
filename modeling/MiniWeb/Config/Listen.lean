import MiniWeb.Config.NginxLines

/-!
# The values of `listen`

Which values of `listen` stand for what `parse_listen` reads out of them. A value names an address,
a port or both, and `default_server` stands at one end of it or nowhere.
-/

namespace MiniWeb.Config

open CStr Routing

variable {a b h host pre post s x y z : CStr} {port : Int} {block : ServerBlock} {e : Endpoint}

/-! ## Values -/

/-- The word that marks the default server. -/
def defaultServer : CStr := ascii "default_server"

/-- An address or the name of a host. -/
structure ListenHost where
  text : CStr
  short : text.length ≤ 63
  plain : ∀ c ∈ text, c ≠ 58 ∧ isSpace c = false
  notNumber : ∃ c ∈ text, isDigit c = false

structure ListenPort where
  number : Nat
  pos : 1 ≤ number
  le : number ≤ 65535

/-- White space between two words, as much of it as the buffer has room for. -/
structure Gap where
  text : CStr
  ne_nil : text ≠ []
  space : ∀ c ∈ text, isSpace c = true
  short : text.length ≤ 44

inductive Endpoint
  | both (host : ListenHost) (port : ListenPort)
  | port (port : ListenPort)
  | host (host : ListenHost)

/-- Where `default_server` stands. -/
inductive DefaultFlag
  | absent
  | before (gap : Gap)
  | after (gap : Gap)

def Endpoint.text : Endpoint → CStr
  | .both host port => host.text ++ 58 :: decimal port.number
  | .port port => decimal port.number
  | .host host => host.text

/-- The address that a value names, or the one for all interfaces. -/
def Endpoint.address : Endpoint → CStr
  | .both host _ => host.text
  | .port _ => ascii "0.0.0.0"
  | .host host => host.text

def Endpoint.number : Endpoint → Nat
  | .both _ port => port.number
  | .port port => port.number
  | .host _ => 80

def DefaultFlag.around (s : CStr) : DefaultFlag → CStr
  | .absent => s
  | .before gap => defaultServer ++ gap.text ++ s
  | .after gap => s ++ gap.text ++ defaultServer

def DefaultFlag.present : DefaultFlag → Bool
  | .absent => false
  | .before _ => true
  | .after _ => true

/-- `parse_listen` reads what the value stands for. -/
structure ReadsBack (e : Endpoint) (flag : DefaultFlag) (block : ServerBlock) : Prop where
  host : (parseListen (flag.around e.text) block).host = e.address
  port : (parseListen (flag.around e.text) block).port = e.number
  isDefault : (parseListen (flag.around e.text) block).isDefault = flag.present

/-! ## The exact condition -/

/-- The first `default_server` of the value is not in the host. -/
def DefaultFlag.Spares (h : CStr) : DefaultFlag → Prop
  | .absent => ¬defaultServer <:+: h
  | .before _ => True
  | .after _ => ¬defaultServer <:+: h

/-- What a host leaves in front of a flag behind it, once the first `default_server` in it is
blanked: the part before that word, or the part behind it if the host begins with the word. -/
def hostLeft (h : CStr) : CStr :=
  match strstr h defaultServer with
  | none => h
  | some ds => if ds.length = h.length then ds.drop 14 else h.take (h.length - ds.length)

/-- The host is no number to `atoi`, or it was there before and the number is the default port. -/
def Named (block : ServerBlock) (h : CStr) : Prop :=
  atoi h ≤ 0 ∨ block.host = h ∧ atoi h = 80

def Understood (block : ServerBlock) : Endpoint → DefaultFlag → Prop
  | .both h _, flag => flag.Spares h.text
  | .port _, _ => block.host = [] ∨ block.host = ascii "0.0.0.0"
  | .host h, .absent => ¬defaultServer <:+: h.text ∧ Named block h.text
  | .host h, .before _ => Named block h.text
  | .host h, .after _ =>
    h.text = defaultServer ∨ ¬defaultServer <:+: h.text ∧ atoi h.text ≤ 0 ∨
      block.host = h.text ∧ atoi (hostLeft h.text) = 80

/-! ## Trimmed text -/

theorem trim_of_solid (hs : ∀ c ∈ s, isSpace c = false) : trim s = s := by
  apply trim_of_ends
  · intro c hc
    exact hs c (List.mem_of_mem_head? hc)
  · intro c hc
    exact hs c (List.mem_of_getLast? hc)

/-- A byte that is no white space keeps what is around it apart. -/
theorem trim_at {d : UInt8} (hd : isSpace d = false) :
    trim (a ++ d :: b) = a.dropWhile isSpace ++ d :: b.rdropWhile isSpace := by
  have hfront : (a ++ d :: b).dropWhile isSpace = a.dropWhile isSpace ++ d :: b := by
    rw [List.dropWhile_append]
    cases hnil : a.dropWhile isSpace with
    | nil => simp [hd]
    | cons c rest => simp
  have hback : ((d :: b).reverse.dropWhile isSpace) = b.reverse.dropWhile isSpace ++ [d] := by
    rw [List.reverse_cons, List.dropWhile_append]
    cases hnil : b.reverse.dropWhile isSpace with
    | nil => simp [hd]
    | cons c rest => simp
  rw [trim, hfront, List.rdropWhile, List.reverse_append, List.dropWhile_append, hback, if_neg]
  · simp [List.rdropWhile]
  · simp

theorem trim_sublist : (trim s).Sublist s := by
  have hback : ((s.dropWhile isSpace).rdropWhile isSpace).Sublist (s.dropWhile isSpace) :=
    (List.rdropWhile_prefix (p := isSpace) _).sublist
  exact hback.trans (List.dropWhile_sublist _)

theorem trim_dropWhile : trim (s.dropWhile isSpace) = trim s := by
  rw [trim, List.dropWhile_idempotent, trim]

/-- The host and the port of a text with a colon. -/
theorem parseHostPort_colon (ha : 58 ∉ a) (b host : CStr) :
    parseHostPort (trim (a ++ 58 :: b)) host =
      (cut 64 (trim a), atoi ((trim (b.rdropWhile isSpace)).takeWhile (· ≠ 32))) := by
  have hdrop : ∀ c ∈ a.dropWhile isSpace, c ≠ 58 := fun c hc heq =>
    ha (heq ▸ (List.dropWhile_sublist _).subset hc)
  have hfront : ∀ c ∈ a.dropWhile isSpace, decide (c ≠ 58) = true := fun c hc =>
    decide_eq_true (hdrop c hc)
  rw [trim_at rfl, parseHostPort, if_pos (by simp), List.takeWhile_append_of_pos hfront,
    List.dropWhile_append_of_pos hfront]
  simp [trim_dropWhile]

/-! ## The blanked word -/

theorem defaultServer_ne_nil : defaultServer ≠ [] := by decide

/-- White space and the colon are not in the word. -/
theorem notMem_defaultServer {d : UInt8} (hd : isSpace d = true ∨ d = 58) :
    d ∉ defaultServer := by
  have hword : ∀ c ∈ defaultServer, ¬(isSpace c = true ∨ c = 58) := by decide
  exact fun hmem => hword d hmem hd

def blanks : CStr := List.replicate 14 32

theorem isSpace_of_mem_blanks {c : UInt8} (hc : c ∈ blanks) : isSpace c = true := by
  rw [List.eq_of_mem_replicate hc]
  decide

theorem blank_at (hfirst : strstr (x ++ (defaultServer ++ y)) defaultServer =
      some (defaultServer ++ y)) :
    blankDefaultServer (x ++ (defaultServer ++ y)) = x ++ blanks ++ y := by
  have hlength : defaultServer.length = 14 := by decide
  change strstr (x ++ (defaultServer ++ y)) (ascii "default_server") = _ at hfirst
  rw [blankDefaultServer, hfirst]
  simp [blanks, hlength, List.drop_append]

theorem blank_of_none (hnone : ¬defaultServer <:+: s) : blankDefaultServer s = s := by
  have h : strstr s (ascii "default_server") = none := by
    rwa [← isSome_strstr_iff defaultServer_ne_nil, Option.not_isSome_iff_eq_none] at hnone
  rw [blankDefaultServer, h]

/-- The word at the start of a text. -/
theorem strstr_start : strstr (defaultServer ++ y) defaultServer = some (defaultServer ++ y) := by
  have hpre : defaultServer.isPrefixOf (defaultServer ++ y) = true :=
    List.isPrefixOf_iff_prefix.mpr (List.prefix_append _ _)
  cases htext : defaultServer ++ y with
  | nil => exact absurd (List.append_eq_nil_iff.mp htext).1 defaultServer_ne_nil
  | cons c rest =>
    rw [htext] at hpre
    rw [strstr, if_pos hpre]

/-- The word behind white space. -/
theorem strstr_gap (hgap : ∀ c ∈ x, isSpace c = true) :
    strstr (x ++ defaultServer) defaultServer = some defaultServer := by
  induction x with
  | nil => decide
  | cons c x ih =>
    rw [List.cons_append, strstr_cons defaultServer_ne_nil
      (notMem_defaultServer (Or.inl (hgap c List.mem_cons_self)))]
    exact ih fun d hd => hgap d (List.mem_cons_of_mem _ hd)

/-- A flag that the host does not come before is blanked where it stands. -/
theorem blank_spared {flag : DefaultFlag} (hspares : flag.Spares s) :
    ∃ pre post, (∀ c ∈ pre, isSpace c = true) ∧ (∀ c ∈ post, isSpace c = true) ∧
      blankDefaultServer (flag.around s) = pre ++ s ++ post := by
  cases flag with
  | absent =>
    refine ⟨[], [], List.forall_mem_nil _, List.forall_mem_nil _, ?_⟩
    rw [List.nil_append, List.append_nil]
    exact blank_of_none hspares
  | before gap =>
    have hblank := blank_at (x := []) (y := gap.text ++ s) strstr_start
    refine ⟨blanks ++ gap.text, [], ?_, List.forall_mem_nil _, ?_⟩
    · intro c hc
      exact (List.mem_append.mp hc).elim isSpace_of_mem_blanks (gap.space c)
    · rw [DefaultFlag.around, List.append_nil, List.append_assoc, List.append_assoc]
      exact hblank
  | after gap =>
    obtain ⟨d, rest, hgap⟩ := List.exists_cons_of_ne_nil gap.ne_nil
    have hspace := gap.space
    rw [hgap] at hspace
    have hnone : strstr s defaultServer = none := by
      rwa [DefaultFlag.Spares, ← isSome_strstr_iff defaultServer_ne_nil,
        Option.not_isSome_iff_eq_none] at hspares
    have hfirst : strstr (s ++ gap.text ++ (defaultServer ++ [])) defaultServer =
        some (defaultServer ++ []) := by
      rw [hgap, List.append_nil, List.append_assoc, List.cons_append,
        strstr_split defaultServer_ne_nil
          (notMem_defaultServer (Or.inl (hspace d List.mem_cons_self))), hnone,
        strstr_gap fun c hc => hspace c (List.mem_cons_of_mem _ hc)]
      rfl
    have hblank := blank_at hfirst
    refine ⟨[], gap.text ++ blanks, List.forall_mem_nil _, ?_, ?_⟩
    · intro c hc
      exact (List.mem_append.mp hc).elim (gap.space c) isSpace_of_mem_blanks
    · rw [List.append_nil] at hblank
      rw [DefaultFlag.around, hblank]
      simp

/-- The word in a host is blanked in place of what comes behind. -/
theorem blank_inside {d : UInt8} (hd : isSpace d = true ∨ d = 58)
    (hfirst : strstr (x ++ (defaultServer ++ y)) defaultServer = some (defaultServer ++ y)) :
    blankDefaultServer (x ++ (defaultServer ++ y) ++ d :: z) =
      x ++ blanks ++ (y ++ d :: z) := by
  have hwhole : x ++ (defaultServer ++ y) ++ d :: z = x ++ (defaultServer ++ (y ++ d :: z)) := by
    simp
  have hsplit := strstr_split (x := x ++ (defaultServer ++ y)) (y := z) defaultServer_ne_nil
    (notMem_defaultServer hd)
  rw [hfirst, hwhole] at hsplit
  rw [hwhole]
  apply blank_at
  rw [hsplit]
  simp

/-- The first word in a text that holds it. -/
theorem exists_first (hin : defaultServer <:+: s) : ∃ x y, s = x ++ (defaultServer ++ y) ∧
    strstr (x ++ (defaultServer ++ y)) defaultServer = some (defaultServer ++ y) := by
  obtain ⟨v, hv⟩ := Option.isSome_iff_exists.mp ((isSome_strstr_iff defaultServer_ne_nil).mpr hin)
  obtain ⟨⟨x, hx⟩, ⟨y, hy⟩⟩ := strstr_spec defaultServer_ne_nil hv
  rw [← hy] at hx hv
  exact ⟨x, y, hx.symm, by rw [hx, hv]⟩

/-! ## What is read -/

/-- A value with its flag fits the buffer. -/
theorem around_short (flag : DefaultFlag) (hs : s.length ≤ 69) : (flag.around s).length < 128 := by
  have hword : defaultServer.length = 14 := by decide
  cases flag with
  | absent =>
    rw [DefaultFlag.around]
    omega
  | before gap =>
    have hgap := gap.short
    rw [DefaultFlag.around, List.length_append, List.length_append, hword]
    omega
  | after gap =>
    have hgap := gap.short
    rw [DefaultFlag.around, List.length_append, List.length_append, hword]
    omega

theorem length_number (p : ListenPort) : (decimal p.number).length ≤ 5 :=
  length_decimal_le (p.le.trans_lt (by decide))

theorem Endpoint.text_short (e : Endpoint) : e.text.length ≤ 69 := by
  cases e with
  | both host port =>
    have hhost := host.short
    have hport := length_number port
    rw [text, List.length_append, List.length_cons]
    omega
  | port port =>
    have hport := length_number port
    rw [text]
    omega
  | host host =>
    have hhost := host.short
    rw [text]
    omega

/-- The flag is read off the value as it is written. -/
theorem isDefault_iff {flag : DefaultFlag} (block : ServerBlock) :
    (parseListen (flag.around e.text) block).isDefault = flag.present ↔
      flag.present = true ∨ ¬defaultServer <:+: e.text := by
  have hread : (parseListen (flag.around e.text) block).isDefault =
      (strstr (flag.around e.text) defaultServer).isSome := by
    rw [parseListen, cut_of_lt (around_short flag e.text_short)]
    rfl
  rw [hread, Bool.eq_iff_iff, isSome_strstr_iff defaultServer_ne_nil]
  cases flag with
  | absent => simp [DefaultFlag.around, DefaultFlag.present]
  | before gap =>
    exact iff_of_true (iff_of_true ⟨[], gap.text ++ e.text, by simp [DefaultFlag.around]⟩ rfl)
      (Or.inl rfl)
  | after gap =>
    exact iff_of_true (iff_of_true ⟨e.text ++ gap.text, [], by simp [DefaultFlag.around]⟩ rfl)
      (Or.inl rfl)

theorem readsBack_iff {flag : DefaultFlag}
    (hread : parseHostPort (trim (blankDefaultServer (flag.around e.text))) block.host =
      (host, port)) :
    ReadsBack e flag block ↔
      ((if host = [] then ascii "0.0.0.0" else host) = e.address ∧
        (if port ≤ 0 then 80 else port) = (e.number : Int)) ∧
      (flag.present = true ∨ ¬defaultServer <:+: e.text) := by
  have hparse : parseListen (flag.around e.text) block =
      { block with
        host := if host = [] then ascii "0.0.0.0" else host
        port := if port ≤ 0 then 80 else port
        isDefault := (strstr (flag.around e.text) defaultServer).isSome } := by
    rw [parseListen, cut_of_lt (around_short flag e.text_short), hread]
    rfl
  rw [← isDefault_iff block]
  constructor
  · rintro ⟨hhost, hport, hdefault⟩
    rw [hparse] at hhost hport
    exact ⟨⟨hhost, hport⟩, hdefault⟩
  · rintro ⟨⟨hhost, hport⟩, hdefault⟩
    refine ⟨?_, ?_, hdefault⟩
    · rw [hparse]
      exact hhost
    · rw [hparse]
      exact hport

/-! ## A host and a port -/

theorem ListenHost.trim_text (h : ListenHost) : trim h.text = h.text :=
  trim_of_solid fun c hc => (h.plain c hc).2

theorem ListenHost.colon_notMem (h : ListenHost) : 58 ∉ h.text := fun hc => (h.plain 58 hc).1 rfl

theorem ListenHost.text_ne_nil (h : ListenHost) : h.text ≠ [] := by
  obtain ⟨c, hc, -⟩ := h.notNumber
  exact List.ne_nil_of_mem hc

theorem ListenHost.cut_text (h : ListenHost) : cut 64 h.text = h.text :=
  cut_of_lt (Nat.lt_succ_of_le h.short)

theorem colon_notMem_of_space (hs : ∀ c ∈ s, isSpace c = true) : 58 ∉ s := fun hc =>
  absurd (hs 58 hc) (by decide)

/-- The port is read as it is written. -/
theorem atoi_port (p : ListenPort) (hpost : ∀ c ∈ post, isSpace c = true) :
    atoi ((trim ((decimal p.number ++ post).rdropWhile isSpace)).takeWhile (· ≠ 32)) =
      (p.number : Int) := by
  have hsolid : ∀ c ∈ decimal p.number, isSpace c = false := fun c hc =>
    (isDigit_only (isDigit_of_mem_decimal hc)).1
  have hback : (decimal p.number ++ post).rdropWhile isSpace = decimal p.number := by
    rw [rdropWhile_append_of_pos hpost, List.rdropWhile_eq_self_iff]
    intro hne
    rw [hsolid _ (List.getLast_mem hne)]
    decide
  have hword : (decimal p.number).takeWhile (· ≠ 32) = decimal p.number := by
    rw [List.takeWhile_eq_self_iff]
    intro c hc
    refine decide_eq_true fun h32 => ?_
    have hspace := hsolid c hc
    rw [h32] at hspace
    exact absurd hspace (by decide)
  rw [hback, trim_of_solid hsolid, hword]
  exact atoi_decimal (p.le.trans_lt (by decide))

/-- A word in the host is not in what is stored. -/
theorem host_lost (hin : h = x ++ (defaultServer ++ y)) : cut 64 (trim (x ++ blanks ++ y)) ≠ h := by
  intro heq
  have hsub : (cut 64 (trim (x ++ blanks ++ y))).Sublist (x ++ blanks ++ y) :=
    (List.take_sublist _ _).trans trim_sublist
  have hcount := hsub.count_le 95
  rw [heq, hin] at hcount
  have hword : List.count 95 defaultServer = 1 := by decide
  have hblanks : List.count 95 blanks = 0 := by decide
  simp only [List.count_append, hword, hblanks] at hcount
  omega

theorem infix_both_iff (h : ListenHost) (p : ListenPort) :
    defaultServer <:+: (Endpoint.both h p).text ↔ defaultServer <:+: h.text := by
  have hport : strstr (decimal p.number) defaultServer = none := by
    apply strstr_eq_none (d := 95) (by decide)
    intro hc
    exact absurd (isDigit_of_mem_decimal hc) (by decide)
  rw [← isSome_strstr_iff defaultServer_ne_nil, ← isSome_strstr_iff defaultServer_ne_nil,
    Endpoint.text, strstr_split defaultServer_ne_nil (notMem_defaultServer (Or.inr rfl)), hport]
  simp

theorem DefaultFlag.Spares.read {flag : DefaultFlag} (hspares : flag.Spares s) :
    flag.present = true ∨ ¬defaultServer <:+: s := by
  cases flag with
  | absent => exact Or.inr hspares
  | before gap => exact Or.inl rfl
  | after gap => exact Or.inl rfl

/-- The address for all interfaces does not hold the word. -/
theorem not_infix_anyAddress : ¬defaultServer <:+: ascii "0.0.0.0" := by decide

theorem readsBack_both_of_spares {h : ListenHost} {p : ListenPort} {flag : DefaultFlag}
    (hspares : flag.Spares (Endpoint.both h p).text) : ReadsBack (.both h p) flag block := by
  obtain ⟨pre, post, hpre, hpost, hblank⟩ := blank_spared hspares
  have hcolon : 58 ∉ pre ++ h.text := by
    rw [List.mem_append]
    exact not_or.mpr ⟨colon_notMem_of_space hpre, h.colon_notMem⟩
  have htext : pre ++ (Endpoint.both h p).text ++ post =
      (pre ++ h.text) ++ 58 :: (decimal p.number ++ post) := by
    simp [Endpoint.text]
  have htrim : trim (pre ++ h.text) = h.text := by
    have hpad := trim_pad h.trim_text hpre (List.forall_mem_nil _)
    rwa [List.append_nil] at hpad
  have hread := parseHostPort_colon hcolon (decimal p.number ++ post) block.host
  rw [htrim, h.cut_text, atoi_port p hpost, ← htext, ← hblank] at hread
  have hpos := p.pos
  refine (readsBack_iff hread).mpr ⟨⟨?_, ?_⟩, hspares.read⟩
  · rw [if_neg h.text_ne_nil]
    rfl
  · rw [if_neg (by omega)]
    rfl

/-- A flag behind a host with the word. -/
theorem not_readsBack_both {h : ListenHost} {p : ListenPort} {gap : Gap}
    (hin : defaultServer <:+: h.text) : ¬ReadsBack (.both h p) (.after gap) block := by
  obtain ⟨x, y, hword, hfirst⟩ := exists_first hin
  have hcolon : 58 ∉ x ++ blanks ++ y := by
    have hhost := h.colon_notMem
    rw [hword, List.mem_append, List.mem_append, not_or, not_or] at hhost
    rw [List.mem_append, List.mem_append, not_or, not_or]
    exact ⟨⟨hhost.1, by decide⟩, hhost.2.2⟩
  have hblank := blank_inside (z := decimal p.number ++ gap.text ++ defaultServer) (Or.inr rfl)
    hfirst
  have hvalue : x ++ (defaultServer ++ y) ++ 58 :: (decimal p.number ++ gap.text ++ defaultServer) =
      (DefaultFlag.after gap).around (Endpoint.both h p).text := by
    simp [DefaultFlag.around, Endpoint.text, hword]
  rw [hvalue, ← List.append_assoc] at hblank
  have hread :=
    parseHostPort_colon hcolon (decimal p.number ++ gap.text ++ defaultServer) block.host
  rw [← hblank] at hread
  intro hback
  obtain ⟨⟨haddress, -⟩, -⟩ := (readsBack_iff hread).mp hback
  by_cases hnil : cut 64 (trim (x ++ blanks ++ y)) = []
  · rw [if_pos hnil] at haddress
    rw [Endpoint.address] at haddress
    exact not_infix_anyAddress (haddress ▸ hin)
  · rw [if_neg hnil] at haddress
    exact host_lost hword haddress

/-- A value with a colon. -/
theorem readsBack_both (h : ListenHost) (p : ListenPort) (flag : DefaultFlag) :
    ReadsBack (.both h p) flag block ↔ flag.Spares h.text := by
  cases flag with
  | absent =>
    rw [DefaultFlag.Spares, ← infix_both_iff h p]
    constructor
    · intro hback
      exact ((isDefault_iff block).mp hback.isDefault).resolve_left fun hp => by cases hp
    · exact fun hnot => readsBack_both_of_spares hnot
  | before gap => exact iff_of_true (readsBack_both_of_spares trivial) trivial
  | after gap =>
    constructor
    · exact fun hback hin => not_readsBack_both hin hback
    · intro hspares
      apply readsBack_both_of_spares
      rwa [DefaultFlag.Spares, infix_both_iff h p]

/-! ## A port alone -/

theorem not_infix_port (p : ListenPort) : ¬defaultServer <:+: decimal p.number := by
  intro hin
  have hbar : 95 ∈ decimal p.number := hin.subset (by decide)
  exact absurd (isDigit_of_mem_decimal hbar) (by decide)

theorem DefaultFlag.spares_of_not {flag : DefaultFlag} (hnot : ¬defaultServer <:+: s) :
    flag.Spares s := by
  cases flag with
  | absent => exact hnot
  | before gap => trivial
  | after gap => exact hnot

theorem parseHostPort_alone (h58 : 58 ∉ s) :
    parseHostPort s host = if atoi s ≤ 0 then (cut 64 s, 80) else (host, atoi s) := by
  rw [parseHostPort, if_neg h58]

theorem readsBack_port (p : ListenPort) (flag : DefaultFlag) :
    ReadsBack (.port p) flag block ↔ block.host = [] ∨ block.host = ascii "0.0.0.0" := by
  have hspares : flag.Spares (Endpoint.port p).text :=
    DefaultFlag.spares_of_not (not_infix_port p)
  obtain ⟨pre, post, hpre, hpost, hblank⟩ := blank_spared hspares
  have hdigit : ∀ c ∈ decimal p.number, isDigit c = true := fun c hc => isDigit_of_mem_decimal hc
  have htrim : trim (decimal p.number) = decimal p.number :=
    trim_of_solid fun c hc => (isDigit_only (hdigit c hc)).1
  have hatoi : atoi (decimal p.number) = (p.number : Int) :=
    atoi_decimal (p.le.trans_lt (by decide))
  have hpos := p.pos
  have hread : parseHostPort (trim (blankDefaultServer (flag.around (Endpoint.port p).text)))
      block.host = (block.host, (p.number : Int)) := by
    have h58 : 58 ∉ decimal p.number := fun hc => absurd (hdigit 58 hc) (by decide)
    rw [hblank, Endpoint.text, trim_pad htrim hpre hpost, parseHostPort_alone h58, hatoi,
      if_neg (by omega)]
  rw [readsBack_iff hread, if_neg (by omega : ¬(p.number : Int) ≤ 0)]
  constructor
  · rintro ⟨⟨haddress, -⟩, -⟩
    by_cases hnil : block.host = []
    · exact Or.inl hnil
    · rw [if_neg hnil] at haddress
      exact Or.inr haddress
  · intro hhost
    refine ⟨⟨?_, rfl⟩, hspares.read⟩
    by_cases hnil : block.host = []
    · rw [if_pos hnil]
      rfl
    · rw [if_neg hnil]
      exact hhost.resolve_left hnil

/-! ## A host alone -/

/-- What is left of the value decides whether it is read as a port. -/
theorem readsBack_host_of_rest {h : ListenHost} {flag : DefaultFlag}
    (hrest : trim (blankDefaultServer (flag.around h.text)) = s) (h58 : 58 ∉ s) (hne : s ≠ [])
    (hany : h.text = ascii "0.0.0.0" → atoi s ≤ 0)
    (hdefault : flag.present = true ∨ ¬defaultServer <:+: h.text) :
    ReadsBack (.host h) flag block ↔
      atoi s ≤ 0 ∧ cut 64 s = h.text ∨ block.host = h.text ∧ atoi s = 80 := by
  by_cases hport : atoi s ≤ 0
  · have hread : parseHostPort (trim (blankDefaultServer (flag.around (Endpoint.host h).text)))
        block.host = (cut 64 s, 80) := by
      rw [Endpoint.text, hrest, parseHostPort_alone h58, if_pos hport]
    have hcut : cut 64 s ≠ [] := by
      obtain ⟨c, rest, hs⟩ := List.exists_cons_of_ne_nil hne
      rw [hs]
      exact List.cons_ne_nil _ _
    rw [readsBack_iff hread, if_neg hcut]
    constructor
    · rintro ⟨⟨haddress, -⟩, -⟩
      exact Or.inl ⟨hport, haddress⟩
    · rintro (⟨-, haddress⟩ | ⟨-, h80⟩)
      · exact ⟨⟨haddress, rfl⟩, hdefault⟩
      · omega
  · have hread : parseHostPort (trim (blankDefaultServer (flag.around (Endpoint.host h).text)))
        block.host = (block.host, atoi s) := by
      rw [Endpoint.text, hrest, parseHostPort_alone h58, if_neg hport]
    rw [readsBack_iff hread, if_neg hport]
    constructor
    · rintro ⟨⟨haddress, hnumber⟩, -⟩
      refine Or.inr ⟨?_, hnumber⟩
      by_cases hnil : block.host = []
      · rw [if_pos hnil] at haddress
        exact absurd (hany haddress.symm) hport
      · rwa [if_neg hnil] at haddress
    · rintro (⟨hle, -⟩ | ⟨haddress, h80⟩)
      · exact absurd hle hport
      · rw [if_neg (haddress ▸ h.text_ne_nil)]
        exact ⟨⟨haddress, h80⟩, hdefault⟩

theorem readsBack_host_of_spares {h : ListenHost} {flag : DefaultFlag}
    (hspares : flag.Spares h.text) : ReadsBack (.host h) flag block ↔ Named block h.text := by
  obtain ⟨pre, post, hpre, hpost, hblank⟩ := blank_spared hspares
  have hrest : trim (blankDefaultServer (flag.around h.text)) = h.text := by
    rw [hblank, trim_pad h.trim_text hpre hpost]
  have hany : h.text = ascii "0.0.0.0" → atoi h.text ≤ 0 := by
    intro heq
    rw [heq]
    decide
  rw [readsBack_host_of_rest hrest h.colon_notMem h.text_ne_nil hany hspares.read, Named,
    h.cut_text, and_iff_left rfl]

theorem hostLeft_of_none (hnone : ¬defaultServer <:+: s) : hostLeft s = s := by
  rw [← isSome_strstr_iff defaultServer_ne_nil, Option.not_isSome_iff_eq_none] at hnone
  rw [hostLeft, hnone]

theorem hostLeft_eq (hfirst : strstr (x ++ (defaultServer ++ y)) defaultServer =
      some (defaultServer ++ y)) :
    hostLeft (x ++ (defaultServer ++ y)) = if x = [] then y else x := by
  have hlength : defaultServer.length = 14 := by decide
  rw [hostLeft, hfirst]
  by_cases hnil : x = []
  · simp [hnil, hlength]
  · have hpos := List.length_pos_iff.mpr hnil
    have hlonger : ¬(defaultServer ++ y).length = (x ++ (defaultServer ++ y)).length := by
      have hsum : (x ++ (defaultServer ++ y)).length = x.length + (defaultServer ++ y).length :=
        List.length_append
      omega
    rw [if_neg hnil]
    simp only [if_neg hlonger]
    simp

/-- A text that starts with no white space, with the word at its end. -/
theorem trim_word (hne : x ≠ []) (hx : ∀ c ∈ x, isSpace c = false) :
    trim (x ++ y ++ defaultServer) = x ++ y ++ defaultServer := by
  obtain ⟨c, rest, rfl⟩ := List.exists_cons_of_ne_nil hne
  apply trim_of_ends
  · intro d hd
    rw [List.append_assoc, List.cons_append, List.head?_cons] at hd
    exact hx d (Option.some.inj hd ▸ List.mem_cons_self)
  · intro d hd
    rw [List.getLast?_append] at hd
    have hr : d = 114 := (Option.some.inj hd).symm
    rw [hr]
    decide

/-- What a flag behind a host with the word leaves of the value: the word, or what the host leaves
with white space behind it. -/
theorem rest_inside (gap : Gap) (hs : ∀ c ∈ s, isSpace c = false)
    (hin : defaultServer <:+: s) (hne : s ≠ defaultServer) :
    hostLeft s ≠ [] ∧ (hostLeft s).length + 14 ≤ s.length ∧ hostLeft s ⊆ s ∧
      ∃ d z, isSpace d = true ∧
        trim (blankDefaultServer ((DefaultFlag.after gap).around s)) = hostLeft s ++ d :: z := by
  obtain ⟨x, y, rfl, hfirst⟩ := exists_first hin
  obtain ⟨d, rest, hgap⟩ := List.exists_cons_of_ne_nil gap.ne_nil
  have hd : isSpace d = true := gap.space d (hgap ▸ List.mem_cons_self)
  have hlength : defaultServer.length = 14 := by decide
  have hblank : blankDefaultServer ((DefaultFlag.after gap).around (x ++ (defaultServer ++ y))) =
      x ++ blanks ++ (y ++ d :: (rest ++ defaultServer)) := by
    rw [← blank_inside (Or.inl hd) hfirst, DefaultFlag.around, hgap]
    simp
  have hsum : (x ++ (defaultServer ++ y)).length = x.length + (14 + y.length) := by
    rw [List.length_append, List.length_append, hlength]
  rw [hostLeft_eq hfirst, hblank, hsum]
  by_cases hx : x = []
  · have hy : y ≠ [] := by
      rintro rfl
      rw [hx] at hne
      simp at hne
    have hsolid : ∀ c ∈ y, isSpace c = false := fun c hc => hs c (by simp [hc])
    rw [if_pos hx]
    refine ⟨hy, by omega, fun c hc => by simp [hc], d, rest ++ defaultServer, hd, ?_⟩
    have hpad := trim_pad (trim_word (y := d :: rest) hy hsolid)
      (fun c hc => isSpace_of_mem_blanks hc) (List.forall_mem_nil _)
    rw [hx, List.nil_append]
    simpa using hpad
  · have hsolid : ∀ c ∈ x, isSpace c = false := fun c hc => hs c (by simp [hc])
    rw [if_neg hx]
    refine ⟨hx, by omega, fun c hc => by simp [hc], 32,
      List.replicate 13 32 ++ (y ++ d :: (rest ++ defaultServer)), rfl, ?_⟩
    have hword := trim_word (y := blanks ++ (y ++ d :: rest)) hx hsolid
    simpa [blanks, List.replicate_succ] using hword

/-- The word alone as the host is read, since the flag behind it is what is left. -/
theorem rest_word (gap : Gap) :
    trim (blankDefaultServer ((DefaultFlag.after gap).around defaultServer)) = defaultServer := by
  have hword : trim defaultServer = defaultServer := by decide
  have hblank : blankDefaultServer ((DefaultFlag.after gap).around defaultServer) =
      blanks ++ gap.text ++ defaultServer := by
    have h := blank_at (x := []) (y := gap.text ++ defaultServer) strstr_start
    simpa [DefaultFlag.around] using h
  rw [hblank]
  have hspace : ∀ c ∈ blanks ++ gap.text, isSpace c = true := by
    intro c hc
    exact (List.mem_append.mp hc).elim isSpace_of_mem_blanks (gap.space c)
  have hpad := trim_pad hword hspace (List.forall_mem_nil _)
  rwa [List.append_nil] at hpad

/-- Blanking the word adds blanks only. -/
theorem mem_blank {c : UInt8} (hc : c ∈ blankDefaultServer s) : c ∈ s ∨ c = 32 := by
  rw [blankDefaultServer] at hc
  cases hfound : strstr s (ascii "default_server") with
  | none =>
    rw [hfound] at hc
    exact Or.inl hc
  | some v =>
    rw [hfound] at hc
    simp only [List.mem_append] at hc
    rcases hc with (hc | hc) | hc
    · exact Or.inl (List.mem_of_mem_take hc)
    · exact Or.inr (List.eq_of_mem_replicate hc)
    · exact Or.inl (List.mem_of_mem_drop hc)

theorem colon_notMem_rest (h : ListenHost) (gap : Gap) :
    58 ∉ trim (blankDefaultServer ((DefaultFlag.after gap).around h.text)) := by
  intro hc
  rcases mem_blank (trim_sublist.subset hc) with hmem | h32
  · rw [DefaultFlag.around, List.mem_append, List.mem_append] at hmem
    rcases hmem with (hhost | hgap) | hword
    · exact h.colon_notMem hhost
    · exact colon_notMem_of_space gap.space hgap
    · exact notMem_defaultServer (Or.inr rfl) hword
  · cases h32

/-- A flag behind a host with the word. -/
theorem readsBack_host_inside {h : ListenHost} {gap : Gap} (hin : defaultServer <:+: h.text) :
    ReadsBack (.host h) (.after gap) block ↔
      h.text = defaultServer ∨ block.host = h.text ∧ atoi (hostLeft h.text) = 80 := by
  have hany : h.text ≠ ascii "0.0.0.0" := fun heq => not_infix_anyAddress (heq ▸ hin)
  have hsolid : ∀ c ∈ h.text, isSpace c = false := fun c hc => (h.plain c hc).2
  by_cases hword : h.text = defaultServer
  · have hrest := rest_word gap
    rw [← hword] at hrest
    have hatoi : atoi h.text ≤ 0 := by
      rw [hword]
      decide
    rw [readsBack_host_of_rest hrest h.colon_notMem h.text_ne_nil (fun _ => hatoi) (Or.inl rfl)]
    exact iff_of_true (Or.inl ⟨hatoi, h.cut_text⟩) (Or.inl hword)
  · obtain ⟨hne, hlength, hsub, d, z, hd, hrest⟩ := rest_inside gap hsolid hin hword
    have h58 : 58 ∉ hostLeft h.text ++ d :: z := hrest ▸ colon_notMem_rest h gap
    have hatoi : atoi (hostLeft h.text ++ d :: z) = atoi (hostLeft h.text) := by
      refine atoi_append ?_ (isDigit_of_isSpace hd)
      obtain ⟨c, rest, hleft⟩ := List.exists_cons_of_ne_nil hne
      have hc := hsolid c (hsub (hleft ▸ List.mem_cons_self))
      rw [hleft, List.all_cons, hc]
      exact Bool.false_ne_true
    have hcut : cut 64 (hostLeft h.text ++ d :: z) ≠ h.text := by
      intro heq
      have hshort := h.short
      have hmem : d ∈ cut 64 (hostLeft h.text ++ d :: z) := by
        obtain ⟨k, hk⟩ : ∃ k, 63 - (hostLeft h.text).length = k + 1 :=
          Nat.exists_eq_succ_of_ne_zero (by omega)
        rw [cut, List.take_append, List.mem_append, hk]
        exact Or.inr List.mem_cons_self
      rw [heq] at hmem
      exact absurd (hsolid d hmem) (by simp [hd])
    rw [readsBack_host_of_rest hrest h58 (by simp) (fun heq => absurd heq hany) (Or.inl rfl), hatoi]
    simp [hcut, hword]

theorem readsBack_host (h : ListenHost) (flag : DefaultFlag) :
    ReadsBack (.host h) flag block ↔ Understood block (.host h) flag := by
  cases flag with
  | absent =>
    rw [Understood]
    constructor
    · intro hback
      have hnot : ¬defaultServer <:+: h.text :=
        ((isDefault_iff block).mp hback.isDefault).resolve_left fun hp => by cases hp
      exact ⟨hnot, (readsBack_host_of_spares (DefaultFlag.spares_of_not hnot)).mp hback⟩
    · rintro ⟨hnot, hnamed⟩
      exact (readsBack_host_of_spares (DefaultFlag.spares_of_not hnot)).mpr hnamed
  | before gap => exact readsBack_host_of_spares trivial
  | after gap =>
    rw [Understood]
    by_cases hin : defaultServer <:+: h.text
    · rw [readsBack_host_inside hin]
      simp [hin]
    · have hword : h.text ≠ defaultServer := fun heq =>
        hin (heq ▸ List.infix_refl _)
      rw [readsBack_host_of_spares (DefaultFlag.spares_of_not hin), hostLeft_of_none hin, Named]
      simp [hin, hword]

/-! ## Every value -/

/-- A value is read back exactly when no `default_server` of its host is taken for the flag, a port
alone finds no other address in its block, and a host alone does not begin with a number. -/
theorem readsBack_iff_understood (e : Endpoint) (flag : DefaultFlag) (block : ServerBlock) :
    ReadsBack e flag block ↔ Understood block e flag := by
  cases e with
  | both h p => exact readsBack_both h p flag
  | port p => exact readsBack_port p flag
  | host h => exact readsBack_host h flag

theorem privateHost_short : (ascii "10.0.0.1").length ≤ 63 := by decide

theorem privateHost_plain : ∀ c ∈ ascii "10.0.0.1", c ≠ 58 ∧ isSpace c = false := by decide

theorem privateHost_notNumber : ∃ c ∈ ascii "10.0.0.1", isDigit c = false := by decide

/-- An address of the private network `10.0.0.0/8`. -/
def privateHost : ListenHost where
  text := ascii "10.0.0.1"
  short := privateHost_short
  plain := privateHost_plain
  notNumber := privateHost_notNumber

/-- The address alone is read as port 10 of all interfaces. -/
theorem address_read_as_port : ¬ReadsBack (.host privateHost) .absent ServerBlock.fresh := by
  intro hback
  have hport := hback.port
  revert hport
  decide

end MiniWeb.Config
