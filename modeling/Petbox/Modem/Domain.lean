/-
`sim7070_parse_domain`: the address of a host, from the replies of the modem to at
most five `AT+CDNSGIP`. The variables that `vsscanf` fills keep what an earlier
reply left in them.
-/
import Petbox.Lib.CString
import Petbox.Modem.AtClient

namespace Petbox.Modem

open CStr Dialogue

/-! ## The line that is parsed -/

/-- `strstr(line, keyword) != NULL`. -/
def hasKeyword (keyword line : List UInt8) : Bool := line.tails.any (keyword.isPrefixOf ·)

/-- `at_resp_get_line_by_kw`; each line is a C string of the response buffer. -/
def atRespGetLineByKw (lines : List (List UInt8)) (keyword : List UInt8) : Option (List UInt8) :=
  (lines.map cstr).find? (hasKeyword keyword)

/-- `isspace`. -/
def isSpace (c : UInt8) : Bool := c == 0x20 || (0x09 ≤ c && c ≤ 0x0d)

/-- Characters of the format that stand for themselves. -/
def scanLiteral (literal s : List UInt8) : Option (List UInt8) :=
  if literal.isPrefixOf s then some (s.drop literal.length) else none

/-- The sign of a number, and what is behind it. -/
def scanSign : List UInt8 → Bool × List UInt8
  | 0x2d :: cs => (true, cs)
  | 0x2b :: cs => (false, cs)
  | cs => (false, cs)

/-- `%d`, where the number ends at the limits of `int`. -/
def scanInt (s : List UInt8) : Option (Int × List UInt8) :=
  let digits := (scanSign s).2
  let number := decimal (digits.takeWhile isDigit)
  if digits.takeWhile isDigit = [] then none
  else some (if (scanSign s).1 then -min number 2147483648 else min number 2147483647, digits.dropWhile isDigit)

/-- `%[^c]`: a character at least, up to `c`. -/
def scanUntil (c : UInt8) (s : List UInt8) : Option (List UInt8 × List UInt8) :=
  if s.takeWhile (· != c) = [] then none else some (s.takeWhile (· != c), s.dropWhile (· != c))

/-- What `at_resp_parse_line_args_by_kw` returns, and what it stores. -/
structure DomainArgs where
  ret : Int
  status : Option Int
  temp : Option (List UInt8)
  recvIp : Option (List UInt8)
  deriving DecidableEq, Repr

/-- `vsscanf(line, "+CDNSGIP: %d,%[^,],\"%[^\"]", &status, temp, recv_ip)`. -/
def scanDomain (line : List UInt8) : DomainArgs :=
  match scanLiteral (ascii "+CDNSGIP:") line with
  | none => ⟨0, none, none, none⟩
  | some s =>
    match scanInt (s.dropWhile isSpace) with
    | none => ⟨if s.dropWhile isSpace = [] then -1 else 0, none, none, none⟩
    | some (status, s) =>
      match (scanLiteral (ascii ",") s).bind (scanUntil 0x2c) with
      | none => ⟨1, some status, none, none⟩
      | some (temp, s) =>
        match (scanLiteral (ascii ",\"") s).bind (scanUntil 0x22) with
        | none => ⟨2, some status, some temp, none⟩
        | some (recvIp, _) => ⟨3, some status, some temp, some recvIp⟩

/-- `at_resp_parse_line_args_by_kw` as `sim7070_parse_domain` calls it. -/
def parseDomainArgs (reply : Answer) : DomainArgs :=
  match atRespGetLineByKw reply.lines (ascii "+CDNSGIP:") with
  | none => ⟨-1, none, none, none⟩
  | some line => scanDomain line

/-! ## The code -/

/-- `temp[20]` and `recv_ip[16]` hold what is stored, and the 0 behind it. -/
def DomainArgs.Fits (args : DomainArgs) : Prop := (args.temp.getD []).length < 20 ∧ (args.recvIp.getD []).length < 16

instance (args : DomainArgs) : Decidable args.Fits := instDecidableAnd

/-- `status`, and the string in `recv_ip`. -/
structure DomainVars where
  status : Int
  recvIp : List UInt8
  deriving DecidableEq, Repr

/-- The variables behind `vsscanf`. -/
def DomainVars.store (vars : DomainVars) (args : DomainArgs) : DomainVars where
  status := args.status.getD vars.status
  recvIp := args.recvIp.getD vars.recvIp

/-- The reply is taken: no `continue` comes before `strncpy`. -/
def Taken (args : DomainArgs) (vars : DomainVars) : Prop :=
  0 ≤ args.ret ∧ vars.status ≠ 0 ∧ 8 ≤ (cstr vars.recvIp).length

instance (args : DomainArgs) (vars : DomainVars) : Decidable (Taken args vars) := instDecidableAnd

/-- The loop of `sim7070_parse_domain`, with `tries` left: `ret`, and the `recv_ip`
that is copied. `none`: an array is overrun. -/
def domainLoop (resp : Int) (hostName : List UInt8) :
    (tries : Nat) → DomainVars → ClientM (Option (Int × Option (List UInt8)))
  | 0, _ => return some (qcloudErrFailure, none)
  | tries + 1, vars => do
    let reply ← atObjExecCmd resp (.cdnsgip hostName 5 10000)
    if reply.ret ≠ qcloudRetSuccess then return some (reply.ret, none)
    let args := parseDomainArgs reply
    if ¬ args.Fits then return none
    if Taken args (vars.store args) then return some (reply.ret, some (vars.store args).recvIp)
    domainLoop resp hostName tries (vars.store args)

def resolveRetry : Nat := 5

/-- What a call returns, and leaves in `host_ip`. -/
structure Resolved (n : Nat) where
  ret : Int
  hostIp : Option (CharArray n)

/-- `strncpy(host_ip, recv_ip, 15)` and the 0 behind it. -/
def copyIp {n : Nat} (hostIp : CharArray n) (recvIp : List UInt8) : CharArray n :=
  hostIp.overwrite (strncpyBytes recvIp 15 ++ [0])

/-- `sim7070_parse_domain` behind its loop. -/
def domainExit {n : Nat} (resp : Int) (ip : CharArray n) :
    Option (Int × Option (List UInt8)) → ClientM (Option (Resolved n))
  | none => return none
  | some (ret, recvIp) => do
    atDeleteResp resp
    return some ⟨ret, some (recvIp.elim ip (copyIp ip))⟩

/-- `sim7070_parse_domain`, for a `host_ip` of `n` bytes; nothing stands for a null
pointer, and as the outcome for undefined behaviour. -/
def sim7070ParseDomain {n : Nat} (hostName : Option (List UInt8)) (hostIp : Option (CharArray n)) :
    ClientM (Option (Resolved n)) :=
  match hostName, hostIp with
  | none, _ => return some ⟨qcloudErrInval, hostIp⟩
  | some _, none => return some ⟨qcloudErrInval, hostIp⟩
  | some hostName, some ip => do
    if n < 16 then return some ⟨qcloudErrFailure, hostIp⟩
    let resp ← atCreateResp 128 4 (2 * atRespTimeoutMs)
    if resp = 0 then return some ⟨qcloudErrFailure, hostIp⟩
    let out ← domainLoop resp hostName resolveRetry ⟨0, []⟩
    domainExit resp ip out

/-! ## What a call should do -/

/-- One to three digits, at most 255. -/
def isOctet (s : List UInt8) : Bool := !s.isEmpty && s.length ≤ 3 && s.all isDigit && decimal s ≤ 255

/-- A dotted IPv4 address: four octets. -/
def isIpv4 (s : List UInt8) : Bool := (s.splitOn 0x2e).length == 4 && (s.splitOn 0x2e).all isOctet

/-- The address of a reply with a nonzero status and a well-formed address. -/
def replyAddress (reply : Answer) : Option (List UInt8) :=
  match (parseDomainArgs reply).status, (parseDomainArgs reply).recvIp with
  | some status, some ip => if status ≠ 0 ∧ isIpv4 ip then some ip else none
  | _, _ => none

/-- The first such address, if none of the queries fails. -/
def firstAddress (replies : List Answer) : Option (List UInt8) :=
  if replies.all (·.ret == qcloudRetSuccess) then replies.findSome? replyAddress else none

/-- The replies to `AT+CDNSGIP`. -/
def domainReplies (asked : List Exchange) : List Answer :=
  asked.filterMap fun e =>
    match e.question with
    | .execCmd _ (.cdnsgip _ _ _) => some e.answer
    | _ => none

/-- The call returns the first address and success, or it returns a failure if
there is none. -/
def Resolves {n : Nat} (r : Outcome Client Request Answer (Option (Resolved n))) : Prop :=
  ∃ res, r.value = some res ∧
    match firstAddress (domainReplies r.asked) with
    | some ip => res.ret = qcloudRetSuccess ∧ res.hostIp.map CharArray.str = some ip
    | none => res.ret ≠ qcloudRetSuccess

/-- A query fails, and every reply before it fits and is not taken. -/
def FailsFirst : DomainVars → List Answer → Prop
  | _, [] => False
  | vars, reply :: replies =>
    reply.ret ≠ qcloudRetSuccess ∨
      (parseDomainArgs reply).Fits ∧ ¬ Taken (parseDomainArgs reply) (vars.store (parseDomainArgs reply)) ∧
        FailsFirst (vars.store (parseDomainArgs reply)) replies

/-- Up to the first query that fails, or the first good address, every reply fits and
is not taken; the address has eight characters at least, or a query fails before
another reply is taken. -/
def ReadsRight : DomainVars → List Answer → Prop
  | _, [] => True
  | vars, reply :: replies =>
    reply.ret ≠ qcloudRetSuccess ∨
      (parseDomainArgs reply).Fits ∧
        match replyAddress reply with
        | some ip => 8 ≤ ip.length ∨ FailsFirst (vars.store (parseDomainArgs reply)) replies
        | none =>
          ¬ Taken (parseDomainArgs reply) (vars.store (parseDomainArgs reply)) ∧
            ReadsRight (vars.store (parseDomainArgs reply)) replies

/-! ## The loop on the replies -/

/-- The loop on the replies that come: those it reads, and its value. -/
def resolve : DomainVars → List Answer → List Answer × Option (Int × Option (List UInt8))
  | _, [] => ([], some (qcloudErrFailure, none))
  | vars, reply :: replies =>
    if reply.ret ≠ qcloudRetSuccess then ([reply], some (reply.ret, none))
    else
      let args := parseDomainArgs reply
      if ¬ args.Fits then ([reply], none)
      else if Taken args (vars.store args) then ([reply], some (reply.ret, some (vars.store args).recvIp))
      else
        let (read, value) := resolve (vars.store args) replies
        (reply :: read, value)

/-- The next answers of the server. -/
def upcoming (m : AtServer) (n k : Nat) : List Answer := (List.range k).map fun i => m.answer (n + i)

theorem upcoming_succ (m : AtServer) (n k : Nat) : upcoming m n (k + 1) = m.answer n :: upcoming m (n + 1) k := by
  simp [upcoming, List.range_succ_eq_map, Nat.add_assoc, Nat.add_comm 1]

/-- The loop of the code is this loop. -/
theorem run_domainLoop (m : AtServer) (resp : Int) (hostName : List UInt8) (tries n : Nat) (vars : DomainVars)
    (client : Client) :
    let r := (domainLoop resp hostName tries vars).run m.env n client
    r.value = (resolve vars (upcoming m n tries)).2 ∧
      domainReplies r.asked = (resolve vars (upcoming m n tries)).1 := by
  induction tries generalizing n vars client with
  | zero => exact ⟨rfl, rfl⟩
  | succ tries ih =>
    rw [upcoming_succ]
    simp only [domainLoop, resolve, run_objExecCmd, run_ite]
    by_cases hret : (m.answer n).ret = qcloudRetSuccess
    · by_cases hfits : (parseDomainArgs (m.answer n)).Fits
      · by_cases htaken : Taken (parseDomainArgs (m.answer n)) (vars.store (parseDomainArgs (m.answer n)))
        · simp [hret, hfits, htaken, domainReplies]
        · have hrest := ih (n + 1) (vars.store (parseDomainArgs (m.answer n))) (m.env n client).2
          simp [hret, hfits, htaken, hrest.1, ← hrest.2, domainReplies]
      · simp [hret, hfits, domainReplies]
    · simp [hret, domainReplies]

/-! ## A good reply -/

theorem scanLiteral_suffix {literal s r : List UInt8} (h : scanLiteral literal s = some r) : r <:+ s := by
  unfold scanLiteral at h
  split at h
  · rw [← Option.some.inj h]
    exact List.drop_suffix ..
  · exact absurd h (by simp)

theorem scanUntil_parts {c : UInt8} {s t r : List UInt8} (h : scanUntil c s = some (t, r)) :
    List.Sublist t s ∧ r <:+ s := by
  unfold scanUntil at h
  split at h
  · exact absurd h (by simp)
  · cases h
    exact ⟨List.takeWhile_sublist _, List.dropWhile_suffix _⟩

theorem scanSign_suffix (s : List UInt8) : (scanSign s).2 <:+ s := by
  unfold scanSign
  split
  · exact List.suffix_cons ..
  · exact List.suffix_cons ..
  · exact List.suffix_rfl

theorem scanInt_suffix {s r : List UInt8} {value : Int} (h : scanInt s = some (value, r)) : r <:+ s := by
  by_cases hnone : (scanSign s).2.takeWhile isDigit = []
  · simp [scanInt, hnone] at h
  · simp only [scanInt, hnone, if_false, Option.some.injEq, Prod.mk.injEq] at h
    rw [← h.2]
    exact (List.dropWhile_suffix _).trans (scanSign_suffix s)

/-- An address that is stored is the third thing that is, and a part of the line. -/
theorem scanDomain_recvIp {line ip : List UInt8} (h : (scanDomain line).recvIp = some ip) :
    (scanDomain line).ret = 3 ∧ List.Sublist ip line := by
  unfold scanDomain at h ⊢
  split at h
  · exact absurd h (by simp)
  · next s hs =>
    split at h
    · exact absurd h (by simp)
    · next status t ht =>
      split at h
      · exact absurd h (by simp)
      · next temp u hu =>
        split at h
        · exact absurd h (by simp)
        · next ip' v hv =>
          obtain rfl := Option.some.inj h
          obtain ⟨t', ht', hu⟩ := Option.bind_eq_some_iff.1 hu
          obtain ⟨u', hu', hv⟩ := Option.bind_eq_some_iff.1 hv
          exact ⟨rfl, (scanUntil_parts hv).1.trans ((scanLiteral_suffix hu').trans ((scanUntil_parts hu).2.trans
            ((scanLiteral_suffix ht').trans ((scanInt_suffix ht).trans ((List.dropWhile_suffix _).trans
              (scanLiteral_suffix hs)))))).sublist⟩

theorem parseDomainArgs_recvIp {reply : Answer} {ip : List UInt8} (h : (parseDomainArgs reply).recvIp = some ip) :
    (parseDomainArgs reply).ret = 3 ∧ Text ip := by
  unfold parseDomainArgs at h ⊢
  split at h
  · exact absurd h (by simp)
  · next line hline =>
    obtain ⟨hret, hsub⟩ := scanDomain_recvIp h
    obtain ⟨raw, -, rfl⟩ := List.mem_map.1 (List.mem_of_find?_eq_some hline)
    exact ⟨hret, fun c hc => text_cstr raw c (hsub.subset hc)⟩

/-- An address has 7 to 15 characters: too short for the driver are those of four digits. -/
theorem isIpv4_length {s : List UInt8} (h : isIpv4 s = true) : 7 ≤ s.length ∧ s.length ≤ 15 := by
  simp only [isIpv4, Bool.and_eq_true, beq_iff_eq, List.all_eq_true] at h
  obtain ⟨hlen, hoctets⟩ := h
  have hbound : ∀ o ∈ s.splitOn 0x2e, 1 ≤ o.length ∧ o.length ≤ 3 := by
    intro o ho
    have hoctet := hoctets o ho
    simp only [isOctet, Bool.and_eq_true, Bool.not_eq_true', List.isEmpty_eq_false_iff, decide_eq_true_eq] at hoctet
    exact ⟨List.length_pos_iff.2 hoctet.1.1.1, hoctet.1.1.2⟩
  have hs : [0x2e].intercalate (s.splitOn 0x2e) = s := List.intercalate_splitOn 0x2e
  rcases hsplit : s.splitOn 0x2e with _ | ⟨a, _ | ⟨b, _ | ⟨c, _ | ⟨d, _ | ⟨e, l⟩⟩⟩⟩⟩ <;> simp [hsplit] at hlen
  rw [hsplit] at hs hbound
  have ha := hbound a (by simp)
  have hb := hbound b (by simp)
  have hc := hbound c (by simp)
  have hd := hbound d (by simp)
  rw [← hs]
  simp [List.intercalate, List.intersperse]
  omega

/-- What a good reply leaves in the variables. -/
theorem replyAddress_some {reply : Answer} {ip : List UInt8} (h : replyAddress reply = some ip) (vars : DomainVars) :
    (vars.store (parseDomainArgs reply)).recvIp = ip ∧ cstr (ip.take 15) = ip ∧
      (Taken (parseDomainArgs reply) (vars.store (parseDomainArgs reply)) ↔ 8 ≤ ip.length) := by
  unfold replyAddress at h
  split at h
  · next status ip' hstatus hip =>
    split at h
    · next hgood =>
      obtain rfl := Option.some.inj h
      obtain ⟨hret, htext⟩ := parseDomainArgs_recvIp hip
      have htake : ip'.take 15 = ip' := List.take_of_length_le (isIpv4_length hgood.2).2
      simp [DomainVars.store, Taken, hip, hstatus, hret, hgood.1, htake, cstr_text htext]
    · exact absurd h (by simp)
  · exact absurd h (by simp)

/-- What is good or wrong about the loop. -/
def LoopRight (out : List Answer × Option (Int × Option (List UInt8))) : Prop :=
  ∃ ret recvIp, out.2 = some (ret, recvIp) ∧
    match firstAddress out.1 with
    | some ip => ret = qcloudRetSuccess ∧ recvIp.map (fun b => cstr (b.take 15)) = some ip
    | none => ret ≠ qcloudRetSuccess

section Loop

variable {vars : DomainVars} {reply : Answer} {replies : List Answer}

theorem resolve_failed (h : reply.ret ≠ qcloudRetSuccess) :
    resolve vars (reply :: replies) = ([reply], some (reply.ret, none)) := by
  simp [resolve, h]

theorem resolve_overrun (h : reply.ret = qcloudRetSuccess) (hfits : ¬ (parseDomainArgs reply).Fits) :
    resolve vars (reply :: replies) = ([reply], none) := by
  simp [resolve, h, hfits]

theorem resolve_taken (h : reply.ret = qcloudRetSuccess) (hfits : (parseDomainArgs reply).Fits)
    (htaken : Taken (parseDomainArgs reply) (vars.store (parseDomainArgs reply))) :
    resolve vars (reply :: replies) =
      ([reply], some (reply.ret, some (vars.store (parseDomainArgs reply)).recvIp)) := by
  simp [resolve, h, hfits, htaken]

theorem resolve_passed (h : reply.ret = qcloudRetSuccess) (hfits : (parseDomainArgs reply).Fits)
    (htaken : ¬ Taken (parseDomainArgs reply) (vars.store (parseDomainArgs reply))) :
    resolve vars (reply :: replies) =
      (reply :: (resolve (vars.store (parseDomainArgs reply)) replies).1,
        (resolve (vars.store (parseDomainArgs reply)) replies).2) := by
  simp [resolve, h, hfits, htaken]

/-- What is copied has eight characters at least; without it the call fails. -/
theorem resolve_value {ret : Int} {recvIp : Option (List UInt8)}
    (h : (resolve vars replies).2 = some (ret, recvIp)) :
    (∀ b, recvIp = some b → 8 ≤ (cstr b).length) ∧ (recvIp = none → ret ≠ qcloudRetSuccess) := by
  induction replies generalizing vars with
  | nil =>
    simp only [resolve, Option.some.injEq, Prod.mk.injEq] at h
    simp [← h.1, ← h.2, qcloudErrFailure, qcloudRetSuccess]
  | cons reply replies ih =>
    by_cases hret : reply.ret = qcloudRetSuccess
    · by_cases hfits : (parseDomainArgs reply).Fits
      · by_cases htaken : Taken (parseDomainArgs reply) (vars.store (parseDomainArgs reply))
        · simp only [resolve_taken hret hfits htaken, Option.some.injEq, Prod.mk.injEq] at h
          simp [← h.2, htaken.2.2]
        · rw [resolve_passed hret hfits htaken] at h
          exact ih h
      · simp [resolve_overrun hret hfits] at h
    · simp only [resolve_failed hret, Option.some.injEq, Prod.mk.injEq] at h
      simp [← h.1, ← h.2, hret]

/-- A query fails just when the loop ends there. -/
theorem failsFirst_iff :
    FailsFirst vars replies ↔ (resolve vars replies).1.all (·.ret == qcloudRetSuccess) = false := by
  induction replies generalizing vars with
  | nil => simp [resolve, FailsFirst]
  | cons reply replies ih =>
    rw [FailsFirst]
    by_cases hret : reply.ret = qcloudRetSuccess
    · by_cases hfits : (parseDomainArgs reply).Fits
      · by_cases htaken : Taken (parseDomainArgs reply) (vars.store (parseDomainArgs reply))
        · simp [resolve_taken hret hfits htaken, hret, htaken]
        · simp [resolve_passed hret hfits htaken, hret, hfits, htaken, ih]
      · simp [resolve_overrun hret hfits, hret, hfits]
    · simp [resolve_failed hret, hret]

theorem FailsFirst.value (h : FailsFirst vars replies) :
    ∃ ret, (resolve vars replies).2 = some (ret, none) ∧ ret ≠ qcloudRetSuccess := by
  induction replies generalizing vars with
  | nil => exact absurd h (by simp [FailsFirst])
  | cons reply replies ih =>
    by_cases hret : reply.ret = qcloudRetSuccess
    · obtain h | ⟨hfits, htaken, h⟩ := h
      · exact absurd hret h
      · rw [resolve_passed hret hfits htaken]
        exact ih h
    · rw [resolve_failed hret]
      exact ⟨reply.ret, rfl, hret⟩

theorem firstAddress_good {ip : List UInt8} (hret : reply.ret = qcloudRetSuccess) (h : replyAddress reply = some ip) :
    firstAddress (reply :: replies) = if replies.all (·.ret == qcloudRetSuccess) then some ip else none := by
  simp [firstAddress, hret, h]

theorem firstAddress_passed (hret : reply.ret = qcloudRetSuccess) (h : replyAddress reply = none) :
    firstAddress (reply :: replies) = firstAddress replies := by
  simp [firstAddress, hret, h]

theorem firstAddress_failed (hret : reply.ret ≠ qcloudRetSuccess) : firstAddress (reply :: replies) = none := by
  simp [firstAddress, hret]

/-- Behind a good address of less than eight characters. -/
theorem loopRight_short {ip : List UInt8} (hret : reply.ret = qcloudRetSuccess) (h : replyAddress reply = some ip)
    (hshort : ip.length < 8) :
    LoopRight (reply :: (resolve vars replies).1, (resolve vars replies).2) ↔ FailsFirst vars replies := by
  constructor
  · intro ⟨ret, recvIp, hvalue, hright⟩
    rw [failsFirst_iff]
    by_contra hall
    rw [firstAddress_good hret h, if_pos (by simpa using hall)] at hright
    obtain ⟨b, hb, hip⟩ := Option.map_eq_some_iff.1 hright.2
    have hlong := (resolve_value hvalue).1 b hb
    -- what is copied is longer
    rw [cstr_take] at hip
    have := congrArg List.length hip
    rw [List.length_take] at this
    omega
  · intro hfails
    obtain ⟨ret, hvalue, hne⟩ := hfails.value
    refine ⟨ret, none, hvalue, ?_⟩
    rw [firstAddress_good hret h, failsFirst_iff.1 hfails]
    exact hne

/-- The loop is right just on these replies. -/
theorem loopRight_iff : LoopRight (resolve vars replies) ↔ ReadsRight vars replies := by
  induction replies generalizing vars with
  | nil => exact iff_of_true ⟨_, none, rfl, (by decide : qcloudErrFailure ≠ qcloudRetSuccess)⟩ trivial
  | cons reply replies ih =>
    rw [ReadsRight]
    by_cases hret : reply.ret = qcloudRetSuccess
    · by_cases hfits : (parseDomainArgs reply).Fits
      · cases haddr : replyAddress reply with
        | some ip =>
          obtain ⟨hip, hcopy, htaken⟩ := replyAddress_some haddr vars
          by_cases hlen : 8 ≤ ip.length
          · rw [resolve_taken hret hfits (htaken.2 hlen), hip]
            refine iff_of_true ⟨reply.ret, some ip, rfl, ?_⟩ (.inr ⟨hfits, .inl hlen⟩)
            rw [firstAddress_good hret haddr]
            exact ⟨hret, by rw [Option.map_some, hcopy]⟩
          · rw [resolve_passed hret hfits (fun h => hlen (htaken.1 h)), loopRight_short hret haddr (by omega)]
            simp [hret, hfits, hlen]
        | none =>
          by_cases htaken : Taken (parseDomainArgs reply) (vars.store (parseDomainArgs reply))
          · rw [resolve_taken hret hfits htaken]
            simp [LoopRight, firstAddress, haddr, hret, htaken]
          · have hrest : LoopRight (resolve vars (reply :: replies)) ↔
                LoopRight (resolve (vars.store (parseDomainArgs reply)) replies) := by
              rw [resolve_passed hret hfits htaken]
              simp only [LoopRight, firstAddress_passed hret haddr]
            rw [hrest, ih]
            simp [hret, hfits, htaken]
      · rw [resolve_overrun hret hfits]
        simp [LoopRight, hret, hfits]
    · rw [resolve_failed hret]
      refine iff_of_true ⟨reply.ret, none, rfl, ?_⟩ (.inl hret)
      rw [firstAddress_failed hret]
      exact hret

end Loop

/-! ## The call -/

theorem cstr_append_nul_cons (a r : List UInt8) : cstr (a ++ 0 :: r) = cstr a := by
  rcases cstr_split a with h | ⟨b, hb⟩
  · rw [cstr_append_zero (h ▸ text_cstr a), h]
  · rw [hb, List.append_assoc, List.cons_append, cstr_append_zero (text_cstr a), cstr_append_zero (text_cstr a)]

theorem str_copyIp {n : Nat} (h : 16 ≤ n) (hostIp : CharArray n) (recvIp : List UInt8) :
    (copyIp hostIp recvIp).str = cstr (recvIp.take 15) := by
  have hlen : (strncpyBytes recvIp 15 ++ [0]).length ≤ n := by
    rw [List.length_append, length_strncpyBytes]
    exact h
  rw [copyIp, CharArray.str, CharArray.bytes_overwrite hlen, List.append_assoc, List.singleton_append,
    cstr_append_nul_cons, cstr_strncpyBytes]

/-- The call asks, when it has both pointers, room for an address and a response object. -/
def Asks {n : Nat} (m : AtServer) (hostName : Option (List UInt8)) (hostIp : Option (CharArray n)) : Prop :=
  hostName.isSome ∧ hostIp.isSome ∧ 16 ≤ n ∧ (m.answer 0).ret ≠ 0

/-- A call that fails before it asks. -/
theorem resolves_failure {n : Nat} {asked : List Exchange} {client : Client} {ret : Int} {hostIp : Option (CharArray n)}
    (hret : ret ≠ qcloudRetSuccess) (hasked : domainReplies asked = []) :
    Resolves ⟨asked, client, some ⟨ret, hostIp⟩⟩ := by
  refine ⟨_, rfl, ?_⟩
  rw [hasked]
  exact hret

section Call

variable {m : AtServer} {n : Nat} {hostName : List UInt8} {hostIp : CharArray n} {client : Client}

/-- A call that asks is as good as its loop. -/
theorem resolves_asks (hn : 16 ≤ n) (hresp : (m.answer 0).ret ≠ 0) :
    Resolves ((sim7070ParseDomain (some hostName) (some hostIp)).run m.env 0 client) ↔
      LoopRight (resolve ⟨0, []⟩ (upcoming m 1 resolveRetry)) := by
  have hsmall : ¬ n < 16 := by omega
  obtain ⟨hvalue, hreplies⟩ := run_domainLoop m (m.answer 0).ret hostName resolveRetry 1 ⟨0, []⟩ (m.env 0 client).2
  have hexit : sim7070ParseDomain (some hostName) (some hostIp) =
      (do
        let resp ← atCreateResp 128 4 (2 * atRespTimeoutMs)
        if resp = 0 then return some ⟨qcloudErrFailure, some hostIp⟩
        domainLoop resp hostName resolveRetry ⟨0, []⟩ >>= domainExit resp hostIp) := if_neg hsmall
  rw [hexit, run_createResp, run_ite, if_neg hresp, run_bind]
  generalize hout : resolve ⟨0, []⟩ (upcoming m 1 resolveRetry) = out at *
  obtain ⟨read, value⟩ := out
  rw [hvalue]
  cases value with
  | none => simp [domainExit, Resolves, LoopRight]
  | some value =>
    obtain ⟨ret, recvIp⟩ := value
    have hasked {c₁ c₂ : Client} {a₁ a₂ : Answer} {resp : Int} {bufSize lineNum timeout : Nat} (es : List Exchange) :
        domainReplies ([⟨c₁, .createResp bufSize lineNum timeout, a₁⟩] ++ (es ++ [⟨c₂, .deleteResp resp, a₂⟩])) =
          domainReplies es := by
      simp [domainReplies]
    rw [domainExit, run_deleteResp, run_pure]
    simp only [Resolves, Outcome.behind_behind, Outcome.behind_asked, Outcome.behind_value, List.append_nil, hasked,
      hreplies, LoopRight]
    have hloop := resolve_value (congrArg Prod.snd hout)
    cases firstAddress read with
    | none => simp
    | some address =>
      cases recvIp with
      | none => simp [hloop.2 rfl]
      | some b => simp [str_copyIp hn]

end Call

/-- **When a name is resolved as it should be**: the call succeeds with the first
good address of its queries, and only then, just when it asks nothing or the
replies that come read right. -/
theorem sim7070ParseDomain_resolves_iff {n : Nat} (m : AtServer) (hostName : Option (List UInt8))
    (hostIp : Option (CharArray n)) (client : Client) :
    Resolves ((sim7070ParseDomain hostName hostIp).run m.env 0 client) ↔
      (Asks m hostName hostIp → ReadsRight ⟨0, []⟩ (upcoming m 1 resolveRetry)) := by
  have hnone {r : Outcome Client Request Answer (Option (Resolved n))} (hr : Resolves r)
      (hasks : ¬ Asks m hostName hostIp) :
      Resolves r ↔ (Asks m hostName hostIp → ReadsRight ⟨0, []⟩ (upcoming m 1 resolveRetry)) :=
    iff_of_true hr fun h => absurd h hasks
  cases hostName with
  | none => exact hnone (resolves_failure (by decide) rfl) (by simp [Asks])
  | some hostName =>
    cases hostIp with
    | none => exact hnone (resolves_failure (by decide) rfl) (by simp [Asks])
    | some hostIp =>
      by_cases hn : 16 ≤ n
      · by_cases hresp : (m.answer 0).ret = 0
        · rw [sim7070ParseDomain, if_neg (by omega), run_createResp, run_ite, if_pos hresp]
          exact hnone (resolves_failure (by decide) rfl) (by simp [Asks, hresp])
        · rw [resolves_asks hn hresp, loopRight_iff]
          simp [Asks, hn, hresp]
      · rw [sim7070ParseDomain, if_pos (by omega)]
        exact hnone (resolves_failure (by decide) rfl) (by simp [Asks, hn])

/-- A modem that answers every query with `1.1.1.1`. -/
def shortServer : AtServer where
  answer n := if n = 0 then ⟨1, []⟩ else ⟨qcloudRetSuccess, [ascii "+CDNSGIP: 1,\"one.one.one.one\",\"1.1.1.1\""]⟩
  urc _ bits := bits

/-- The address is too short for the driver: the call fails. -/
theorem sim7070ParseDomain_short :
    ¬ Resolves ((sim7070ParseDomain (some (ascii "one.one.one.one")) (some (CharArray.zero 16))).run shortServer.env 0
      ⟨0, 0⟩) := by
  rw [resolves_asks (by decide) (by decide)]
  have hloop : resolve ⟨0, []⟩ (upcoming shortServer 1 resolveRetry) =
      (List.replicate 5 (shortServer.answer 1), some (qcloudErrFailure, none)) := by decide +kernel
  have haddress : firstAddress (List.replicate 5 (shortServer.answer 1)) = some (ascii "1.1.1.1") := by decide +kernel
  rw [hloop]
  intro ⟨ret, recvIp, hvalue, hright⟩
  cases hvalue
  rw [haddress] at hright
  exact absurd hright.1 (by decide)

end Petbox.Modem
