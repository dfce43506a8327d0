/-
# Reading an object

`Read` (`ECSUtil/ECSConnection.cpp`): the request for a range of an object, which is made again while
the size of what came is wrong.  What `SendRequest` returns of each request is a parameter: the
error, the headers and the reads.

The size is that of `RetData`, with the bytes that are reserved, and it is compared with the headers
that are spelled `Content-Length` and `Content-Range`: `read_exact_iff`.

A request is made again while the sizes are wrong, so the result is that of some reply
(`ReadExact`), and the condition is on that reply alone: where nothing is reserved, the number of
the bytes is the one that is compared, and where something is, the headers would have to be wrong by
as many bytes for the test to come out right.
-/

import ECSUtil.Conn.Format
import ECSUtil.Copy.Headers
import ECSUtil.Receive.Modes

namespace ECSUtil
namespace Receive

def READ_RETRY_MAX_TRIES : ℕ := 5

/-- A `LONGLONG` as a `ULONGLONG`. -/
def toULONGLONG (n : ℤ) : ℕ := (n % 2 ^ 64).toNat

/-- The nearest `LONGLONG`. -/
def toLONGLONG (n : ℤ) : ℤ := max (-2 ^ 63) (min n (2 ^ 63 - 1))

/-- `_ttoi64`. -/
def ttoi64 (s : CString) : ℤ := toLONGLONG (((scanNumber none s).map Prod.fst).getD 0)

/-- `bytes %I64d-%I64d/%I64d`, where a number skips the blanks before it. -/
def contentRangeFormat : List Directive :=
  "bytes".toList.map .lit ++ [.num none, .lit '-', .num none, .lit '/', .num none]

/-- The size of a text of `Content-Range`. -/
def contentRange (s : CString) : Option ℕ :=
  let fields := (scanf contentRangeFormat s).map toLONGLONG
  if fields.length = 3 then some (toULONGLONG (fields.getD 1 0 + 1 - fields.getD 0 0)) else none

/-- The size that a header tells, where `same` compares its name. -/
def sizeOf (same : CString → CString → Bool) (h : Copy.HeaderReq) : Option ℕ :=
  if h.ContentList.length = 1 then
    if same h.sHeader "Content-Length".toList then
      some (toULONGLONG (ttoi64 (h.ContentList.headD [])))
    else if same h.sHeader "Content-Range".toList then contentRange (h.ContentList.headD [])
    else none
  else none

/-- `==` of two `CString`. -/
def compareCase (a b : CString) : Bool := a == b

/-- What a request comes to. -/
structure Response where
  Error : S3Error := {}
  /-- The lines of the header. -/
  lines : List CString := []
  reads : List Read := []
  ending : Ending := .complete
  /-- What is in the block of `RetData`. -/
  block : ℕ → UInt8 := fun _ => 0
  /-- Without an error the reply was read to its end. -/
  complete : Error.ifError = false → ending = .complete

namespace Response

/-- `HeaderReq`. -/
def HeaderReq (r : Response) : List Copy.HeaderReq := Copy.readHeaders r.lines

/-- All sizes that the headers tell are this one. -/
def Agree (r : Response) (same : CString → CString → Bool) (n : ℕ) : Prop :=
  ∀ h ∈ r.HeaderReq, ∀ m ∈ sizeOf same h, n = m

instance (r : Response) (same : CString → CString → Bool) (n : ℕ) : Decidable (r.Agree same n) :=
  inferInstanceAs (Decidable (∀ h ∈ r.HeaderReq, ∀ m ∈ sizeOf same h, n = m))

/-- What the receive loop depends on. -/
def config (r : Response) (dwBufOffset : UInt32) : Config where
  dwHttpError := r.Error.dwHttpError
  dwBufOffset := dwBufOffset
  block := r.block

end Response

/-- The arguments of `Read`. -/
structure ReadArgs where
  lwLen : UInt64 := 0
  lwOffset : UInt64 := 0
  dwBufOffset : UInt32 := 0
  /-- `pStreamReceive` is given. -/
  bStream : Bool := false

/-- The `range` header. -/
def ReadArgs.sRange (args : ReadArgs) : Option CString :=
  if args.lwOffset ≠ 0 ∨ args.lwLen ≠ 0 then
    some ("bytes=".toList ++ fmtNum 0 args.lwOffset.toNat ++ "-".toList ++
      if args.lwLen ≠ 0 then fmtNum 0 (args.lwOffset + args.lwLen - 1).toNat else [])
  else none

/-- What `Read` returns. -/
structure ReadResult where
  Error : S3Error
  RetData : Bytes
  RcvHeaders : List Copy.HeaderReq
  /-- `*pullReturnedLength`, where it is set. -/
  ullReturnedLength : Option ℕ := none
  /-- History: the number of the last request. -/
  iRetry : ℕ

/-- `ullTotalLength`. -/
def totalLength (bStream : Bool) (s : State) : ℕ :=
  if bStream then s.ullReadBytes else s.RetData.length

/-- What is made of the reply to request `iRetry`; `none` is another request. -/
def check (args : ReadArgs) (r : Response) (s : State) (iRetry : ℕ) : Option ReadResult :=
  let n := totalLength args.bStream s
  if r.Error.ifError then
    some { Error := r.Error, RetData := s.RetData, RcvHeaders := r.HeaderReq, iRetry := iRetry }
  else if r.Agree compareCase n then
    some { Error := r.Error, RetData := s.RetData, RcvHeaders := r.HeaderReq,
           ullReturnedLength := some n, iRetry := iRetry }
  else if args.bStream = false ∧ iRetry < READ_RETRY_MAX_TRIES - 1 then none
  else
    some { Error := .ofWin32 ERROR_BAD_LENGTH, RetData := s.RetData, RcvHeaders := r.HeaderReq,
           ullReturnedLength := some n, iRetry := iRetry }

/-- The requests, with the number of those that are left. -/
def readLoop (args : ReadArgs) (respond : ℕ → Option CString → Response) :
    ℕ → ℕ → Option ReadResult
  | 0, _ => none
  | left + 1, iRetry =>
      let r := respond iRetry args.sRange
      (receive args.bStream (r.config args.dwBufOffset) r.reads r.ending).bind fun s =>
        (check args r s iRetry).orElse fun _ => readLoop args respond left (iRetry + 1)

/-- `Read`, where the server responds to the requests in turn; `none` where a buffer runs out of
room. -/
def read (args : ReadArgs) (respond : ℕ → Option CString → Response) : Option ReadResult :=
  readLoop args respond READ_RETRY_MAX_TRIES 0

/-- The number of the object's bytes that came. -/
def Response.delivered (r : Response) : ℕ := (received r.reads).length

/-- The length that `Read` finds. -/
def Response.found (r : Response) (args : ReadArgs) : ℕ :=
  if args.bStream then r.delivered else (stored (r.config args.dwBufOffset) r.reads).length

/-- **`Read` checks what it delivers**: it succeeds if and only if the request did and the bytes that
came are as many as the headers tell, in whatever letters they are written; and then the bytes are
where they belong, and their number is returned. -/
structure ReadExact (args : ReadArgs) (r : Response) (res : ReadResult) : Prop where
  success : res.Error.ifError = false ↔
    r.Error.ifError = false ∧ r.Agree compareNoCase r.delivered
  data : res.Error.ifError = false → args.bStream = false →
    res.RetData.drop args.dwBufOffset.toNat = received r.reads
  length : res.Error.ifError = false → res.ullReturnedLength = some r.delivered

/-- When it does.  Nothing is reserved where bytes came, and headers in other letters agree when the
others do; or something is, and the headers fit neither with it nor without it. -/
def ReadHolds (args : ReadArgs) (r : Response) : Prop :=
  r.Error.ifError = true ∨
    if args.bStream = true ∨ args.dwBufOffset = 0 ∨ r.reads = [] then
      r.Agree compareCase r.delivered → r.Agree compareNoCase r.delivered
    else
      ¬r.Agree compareCase (args.dwBufOffset.toNat + r.delivered) ∧
        ¬r.Agree compareNoCase r.delivered

section

variable {args : ReadArgs} {r : Response} {s : State} {res : ReadResult} {iRetry : ℕ}

/-- Without an error the status is good. -/
theorem status_of_ifError (h : r.Error.ifError = false) :
    r.Error.dwHttpError < HTTP_STATUS_BAD_REQUEST := by
  unfold S3Error.ifError at h
  simp only [Bool.or_eq_false_iff, decide_eq_false_iff_not] at h
  exact Nat.not_le.1 h.1.2

/-- The bytes of a stream are counted. -/
theorem ullReadBytes_turns {cfg : Config} {reads : List Read}
    (hstatus : cfg.dwHttpError < HTTP_STATUS_BAD_REQUEST)
    (h : State.turns true cfg reads { dwLen := cfg.dwBufOffset } = some s) :
    s.ullReadBytes = (received reads).length := by
  have hrun := State.turns_invariant
    (I := fun s rest => s.ullReadBytes + (received rest).length = (received reads).length) ?_
    (Nat.zero_add _) h
  · simpa using hrun
  · intro s r rest s' hs hturn
    obtain rfl : s.push r = s' := by
      simpa [State.turn, hstatus] using hturn
    rw [received_cons, List.length_append] at hs
    show s.ullReadBytes + r.dwDownloaded.toNat + _ = _
    rw [r.toNat_dwDownloaded]
    omega

/-- The end of a response changes nothing of what was counted. -/
theorem ullReadBytes_finish {bStream : Bool} {cfg : Config} (ending : Ending) :
    (s.finish bStream cfg ending).ullReadBytes = s.ullReadBytes := by
  cases ending with
  | complete =>
      unfold State.finish
      dsimp only
      split_ifs <;> rfl
  | failed dwError => rfl

/-- **What is left of a reply without an error.** The length is what the loop has counted, with the
reserved bytes where there is no stream. -/
theorem receive_response (herror : r.Error.ifError = false)
    (h : receive args.bStream (r.config args.dwBufOffset) r.reads r.ending = some s) :
    totalLength args.bStream s = r.found args ∧
      (args.bStream = false → s.RetData = stored (r.config args.dwBufOffset) r.reads) := by
  rw [r.complete herror] at h
  unfold totalLength Response.found
  cases hmode : args.bStream with
  | false =>
      rw [hmode, receive_eq_turns (.inl rfl)] at h
      have hRetData := (turns_memory h).RetData
      exact ⟨congrArg List.length hRetData, fun _ => hRetData⟩
  | true =>
      have hstatus := status_of_ifError herror
      rw [hmode] at h
      obtain ⟨t, ht, rfl⟩ := Option.map_eq_some_iff.1 h
      refine ⟨?_, fun h => absurd h.symm Bool.false_ne_true⟩
      rw [if_pos rfl, if_pos rfl, ullReadBytes_finish]
      exact ullReadBytes_turns hstatus ht

/-- A header that is spelled so is found in any letters. -/
theorem sizeOf_compareNoCase {h : Copy.HeaderReq} {m : ℕ} (hm : m ∈ sizeOf compareCase h) :
    m ∈ sizeOf compareNoCase h := by
  unfold sizeOf at hm ⊢
  split_ifs at hm with hone hlength hrange
  · obtain hname : h.sHeader = "Content-Length".toList := beq_iff_eq.1 hlength
    rw [if_pos hone, hname, if_pos (compareNoCase_self _)]
    exact hm
  · obtain hname : h.sHeader = "Content-Range".toList := beq_iff_eq.1 hrange
    rw [if_pos hone, hname, if_neg (by decide), if_pos (compareNoCase_self _)]
    exact hm
  · exact absurd hm (by simp)
  · exact absurd hm (by simp)

/-- Headers that agree up to the case of their names agree as they are spelled. -/
theorem Response.Agree.exact {n : ℕ} (h : r.Agree compareNoCase n) : r.Agree compareCase n :=
  fun hdr hmem m hm => h hdr hmem m (sizeOf_compareNoCase hm)

/-- What is found, where nothing is reserved in front of it. -/
theorem found_eq_delivered (h : args.bStream = true ∨ args.dwBufOffset = 0 ∨ r.reads = []) :
    r.found args = r.delivered := by
  unfold Response.found
  split_ifs with hstream
  · rfl
  · unfold stored
    split_ifs with hnil
    · rw [Response.delivered, hnil]
      rfl
    · rcases h with hmode | hoffset | hreads
      · exact absurd hmode hstream
      · rw [List.length_append, length_reserved, Response.config, hoffset]
        exact Nat.zero_add _
      · exact absurd hreads hnil

/-- What is found behind reserved bytes. -/
theorem found_eq_add (h : ¬(args.bStream = true ∨ args.dwBufOffset = 0 ∨ r.reads = [])) :
    r.found args = args.dwBufOffset.toNat + r.delivered := by
  obtain ⟨hstream, -, hreads⟩ := not_or.1 h |>.imp_right not_or.1
  rw [Response.found, if_neg hstream, stored, if_neg hreads, List.length_append, length_reserved]
  rfl

/-- The bytes behind the reserved ones. -/
theorem drop_stored (cfg : Config) (reads : List Read) :
    (stored cfg reads).drop cfg.dwBufOffset.toNat = received reads := by
  unfold stored
  split_ifs with hnil
  · rw [hnil, List.drop_nil, received_nil]
  · rw [← length_reserved, List.drop_left]

/-- **What a check says.** It is made only for a reply without an error, and compares what was read
with the headers of the reply. -/
theorem check_spec (h : check args r s iRetry = some res) : res.iRetry = iRetry ∧
    (r.Error.ifError = true → res.Error.ifError = true) ∧
    (r.Error.ifError = false → res.RetData = s.RetData ∧
      res.ullReturnedLength = some (totalLength args.bStream s) ∧
      (res.Error.ifError = false ↔ r.Agree compareCase (totalLength args.bStream s))) := by
  unfold check at h
  dsimp only at h
  split_ifs at h with herror hagree
  · obtain rfl := Option.some.inj h
    exact ⟨rfl, fun _ => herror, fun hgood => absurd (hgood.symm.trans herror) Bool.false_ne_true⟩
  · obtain rfl := Option.some.inj h
    exact ⟨rfl, fun hbad => absurd hbad herror, fun hgood => ⟨rfl, rfl, iff_of_true hgood hagree⟩⟩
  · obtain rfl := Option.some.inj h
    exact ⟨rfl, fun hbad => absurd hbad herror,
      fun _ => ⟨rfl, rfl, iff_of_false (by simp; decide) hagree⟩⟩

/-- `Read` ends with a check. -/
theorem check_of_readLoop {respond : ℕ → Option CString → Response} {left : ℕ}
    (h : readLoop args respond left iRetry = some res) :
    ∃ s, receive args.bStream ((respond res.iRetry args.sRange).config args.dwBufOffset)
        (respond res.iRetry args.sRange).reads (respond res.iRetry args.sRange).ending = some s ∧
      check args (respond res.iRetry args.sRange) s res.iRetry = some res := by
  induction left generalizing iRetry with
  | zero => exact absurd h (by simp [readLoop])
  | succ left ih =>
      unfold readLoop at h
      obtain ⟨s, hs, h⟩ := Option.bind_eq_some_iff.1 h
      cases hcheck : check args (respond iRetry args.sRange) s iRetry with
      | none =>
          rw [hcheck] at h
          exact ih h
      | some res' =>
          rw [hcheck] at h
          obtain rfl : res' = res := Option.some.inj h
          obtain rfl := (check_spec hcheck).1
          exact ⟨s, hs, hcheck⟩

/-- A reply that there is room for is received. -/
theorem exists_receive (h : args.bStream = false → Room (r.config args.dwBufOffset) r.reads) :
    ∃ s, receive args.bStream (r.config args.dwBufOffset) r.reads r.ending = some s := by
  cases hmode : args.bStream with
  | false =>
      obtain ⟨s, hs⟩ := exists_turns_memory storing_start (h hmode)
      exact ⟨s, (receive_eq_turns (.inl rfl)).trans hs⟩
  | true =>
      obtain ⟨t, ht⟩ := Option.isSome_iff_exists.1 (State.turns_stream_isSome
        (r.config args.dwBufOffset) r.reads { dwLen := args.dwBufOffset })
      exact ⟨_, Option.map_eq_some_iff.2 ⟨t, ht, rfl⟩⟩

/-- The last request is not made again. -/
theorem exists_readLoop {respond : ℕ → Option CString → Response} {left : ℕ}
    (h : ∀ i, args.bStream = false → Room ((respond i args.sRange).config args.dwBufOffset)
      (respond i args.sRange).reads)
    (hleft : iRetry + left = READ_RETRY_MAX_TRIES - 1) :
    ∃ res, readLoop args respond (left + 1) iRetry = some res := by
  induction left generalizing iRetry with
  | zero =>
      obtain ⟨s, hs⟩ := exists_receive (h iRetry)
      cases hcheck : check args (respond iRetry args.sRange) s iRetry with
      | none =>
          unfold check at hcheck
          dsimp only at hcheck
          split_ifs at hcheck with _ _ hagain
          omega
      | some res => exact ⟨res, by simp [readLoop, hs, hcheck]⟩
  | succ left ih =>
      obtain ⟨s, hs⟩ := exists_receive (h iRetry)
      obtain ⟨rest, hrest⟩ := ih (show iRetry + 1 + left = _ by omega)
      cases hcheck : check args (respond iRetry args.sRange) s iRetry with
      | none => exact ⟨rest, by rw [readLoop]; simp [hs, hcheck, hrest]⟩
      | some res => exact ⟨res, by rw [readLoop]; simp [hs, hcheck]⟩

/-- One reply, as `Read` ends with it. -/
theorem readExact_iff_holds
    (hs : receive args.bStream (r.config args.dwBufOffset) r.reads r.ending = some s)
    (hcheck : check args r s iRetry = some res) : ReadExact args r res ↔ ReadHolds args r := by
  obtain ⟨-, hbad, hgood⟩ := check_spec hcheck
  unfold ReadHolds
  by_cases herror : r.Error.ifError = true
  · refine iff_of_true ⟨?_, fun hok => ?_, fun hok => ?_⟩ (.inl herror)
    · exact iff_of_false (by simp [hbad herror]) (by simp [herror])
    · exact absurd (hok.symm.trans (hbad herror)) Bool.false_ne_true
    · exact absurd (hok.symm.trans (hbad herror)) Bool.false_ne_true
  · have hno := Bool.eq_false_iff.2 herror
    obtain ⟨hRetData, hlength, hok⟩ := hgood hno
    obtain ⟨htotal, hmemory⟩ := receive_response hno hs
    rw [htotal] at hlength hok
    rw [or_iff_right herror]
    split_ifs with hplain
    · rw [found_eq_delivered hplain] at hlength hok
      constructor
      · exact fun h hcase => (h.success.1 (hok.2 hcase)).2
      · intro h
        refine ⟨hok.trans ⟨fun hcase => ⟨hno, h hcase⟩, fun hboth => hboth.2.exact⟩, ?_,
          fun _ => hlength⟩
        intro _ hmode
        rw [hRetData, hmemory hmode]
        exact drop_stored (r.config args.dwBufOffset) r.reads
    · rw [found_eq_add hplain] at hlength hok
      have hoffset : args.dwBufOffset.toNat ≠ 0 := fun h0 =>
        hplain (.inr (.inl (UInt32.toNat_inj.1 h0)))
      constructor
      · intro h
        have hfail : res.Error.ifError ≠ false := fun hsuccess => by
          have := Option.some.inj (hlength.symm.trans (h.length hsuccess))
          omega
        exact ⟨fun hcase => hfail (hok.2 hcase), fun hany => hfail (h.success.2 ⟨hno, hany⟩)⟩
      · rintro ⟨hcase, hany⟩
        have hfail : res.Error.ifError ≠ false := fun hsuccess => hcase (hok.1 hsuccess)
        exact ⟨iff_of_false hfail fun hboth => hany hboth.2, fun h => absurd h hfail,
          fun h => absurd h hfail⟩

end

/-- **What `Read` delivers**: it returns, where there is room for every reply, and it is exact about the
last reply if and only if that meets `ReadHolds`. -/
theorem read_exact_iff (args : ReadArgs) (respond : ℕ → Option CString → Response) :
    ((∀ i, args.bStream = false → Room ((respond i args.sRange).config args.dwBufOffset)
      (respond i args.sRange).reads) → ∃ res, read args respond = some res) ∧
    ∀ res, read args respond = some res → (ReadExact args (respond res.iRetry args.sRange) res ↔
      ReadHolds args (respond res.iRetry args.sRange)) := by
  refine ⟨fun h => exists_readLoop h rfl, fun res h => ?_⟩
  obtain ⟨s, hs, hcheck⟩ := check_of_readLoop h
  exact readExact_iff_holds hs hcheck

/-- A reply with two bytes. -/
def twoBytes : Response where
  lines := ["Content-Length: 2".toList]
  reads := [⟨2, [1, 2], by decide, by decide⟩]
  complete _ := rfl

/-- Two bytes have room behind a few that are reserved. -/
theorem room_twoBytes (dwBufOffset : UInt32) (h : dwBufOffset.toNat ≤ 4) :
    Room (twoBytes.config dwBufOffset) twoBytes.reads := by
  refine Past.nil.snoc ?_
  have hsize : (2 : UInt32).toNat = 2 := rfl
  show dwBufOffset.toNat + 0 + (2 : UInt32).toNat + 0x100000 + 100 < 2 ^ 32
  omega

/-- With four bytes reserved, `Read` does not take it. The counted length is six, and the header
says two. -/
theorem read_reserved : ∃ res, read { dwBufOffset := 4 } (fun _ _ => twoBytes) = some res ∧
    ¬ReadExact { dwBufOffset := 4 } twoBytes res := by
  obtain ⟨res, hres⟩ : ∃ res, read { dwBufOffset := 4 } (fun _ _ => twoBytes) = some res :=
    exists_readLoop (fun _ _ => room_twoBytes 4 (by decide)) rfl
  obtain ⟨s, hs, hcheck⟩ := check_of_readLoop hres
  refine ⟨res, hres, fun hexact => ?_⟩
  have hholds := (readExact_iff_holds hs hcheck).1 hexact
  have hagree : twoBytes.Agree compareNoCase twoBytes.delivered := by decide
  rcases hholds with herror | hheaders
  · exact absurd herror (by decide)
  · exact hheaders.2 hagree

/-- With nothing reserved it does. The counted length is that of the header. -/
theorem read_exact_iff_plain : ∃ res, read {} (fun _ _ => twoBytes) = some res ∧
    ReadExact {} twoBytes res := by
  have hread := read_exact_iff {} fun _ _ => twoBytes
  obtain ⟨res, hres⟩ := hread.1 fun _ _ => room_twoBytes 0 (by decide)
  refine ⟨res, hres, (hread.2 res hres).2 (.inr ?_)⟩
  exact fun _ => by decide

end Receive
end ECSUtil
