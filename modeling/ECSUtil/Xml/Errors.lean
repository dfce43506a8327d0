/-
# The errors of callbacks

The callbacks of `ScanXml` report errors as Win32 codes (`ERROR_INVALID_DATA`,
`ERROR_XML_PARSE_ERROR`, what `ParseISO8601Date` returns).  `ScanXmlStream` tests their results
with `FAILED`, which is false of every such code: the scan goes on, and returns success
(`errors_reported`).

What a scan has forgotten is found out by a callback that writes its results down
(`Callback.logged`): it does to its context what the callback does (`forget`), and the errors are in
its list.
-/

import ECSUtil.Xml.Scan

namespace ECSUtil
namespace Xml

def ERROR_XML_PARSE_ERROR : DWORD := 1465

/-- What `SendRequest` returns: its error, and of the data how many bytes they are, whether they
begin with `<?xml`, and what the reader makes of them. -/
structure Reply where
  error : S3Error := {}
  dwSize : ℕ := 6
  bXml : Bool := true
  reading : Reading

/-- How the callers of `ScanXml` test its result: with `FAILED`, or for `ERROR_SUCCESS`. -/
inductive Test
  | failed
  | nonzero
  deriving DecidableEq, Repr

/-- The error a caller leaves with after a scan, if it does. -/
def Test.leaves (t : Test) (hr : DWORD) : Option S3Error :=
  if (match t with
    | .failed => FAILED hr
    | .nonzero => hr ≠ ERROR_SUCCESS) then some (.ofWin32 hr)
  else none

/-- A callback that keeps a log of its results in its context. -/
def Callback.logged {σ : Type} (cb : Callback σ) : Callback (σ × List DWORD) := fun p e c =>
  ((cb p e c.1).1, (cb p e c.1).2, c.2 ++ [(cb p e c.1).1])

section

variable {σ : Type} {cb : Callback σ} {c : σ}

/-- Without the log. -/
def forget {α β : Type} (f : α → β) : Except (DWORD × σ × List DWORD) α → Except (DWORD × σ) β
  | .ok a => .ok (f a)
  | .error e => .error (e.1, e.2.1)

/-- To write a result down changes nothing of the test of it. -/
theorem forget_check {α β : Type} {f : α → β} {hr : DWORD} {a : α} {log : List DWORD} :
    forget f (check (c, log) hr a) = check c hr (f a) := by
  unfold check
  split_ifs <;> rfl

/-- **Parts in a row.** The log goes along with the context and is given to no decision, so it can
be left out of each part by itself. -/
theorem forget_bind {α β α' β' : Type} {f : α → β} {g : α' → β'}
    {r : Except (DWORD × σ × List DWORD) α} {k : α → Except (DWORD × σ × List DWORD) α'}
    {k' : β → Except (DWORD × σ) β'} (hk : ∀ a, r = .ok a → forget g (k a) = k' (f a)) :
    forget g (r >>= k) = forget f r >>= k' := by
  cases r with
  | ok a => exact hk a rfl
  | error e => rfl

/-- To write results down changes nothing of the attributes. -/
theorem forget_collectAttributes (l : List Attribute) (log : List DWORD) :
    forget id (collectAttributes (c, log) l) = collectAttributes c l := by
  induction l with
  | nil => rfl
  | cons a l ih =>
      unfold collectAttributes
      split_ifs
      · exact ih
      · refine (forget_bind (f := id) fun _ _ => ?_).trans (congrArg (· >>= _) forget_check)
        refine (forget_bind (f := id) fun _ _ => ?_).trans (congrArg (· >>= _) forget_check)
        refine (forget_bind (f := id) fun _ _ => ?_).trans (congrArg (· >>= _) forget_check)
        rw [← ih]
        exact forget_bind fun _ _ => rfl

/-- To write a result down changes nothing of what comes behind the callback. -/
theorem forget_checkIfInterested {α β : Type} {g : α → β} {stack : List CString} {e : Event}
    {c : σ × List DWORD} {k : σ × List DWORD → Except (DWORD × σ × List DWORD) α}
    {k' : σ → Except (DWORD × σ) β} (hk : ∀ c', forget g (k c') = k' c'.1) :
    forget g (checkIfInterested cb.logged stack e c >>= k) =
      checkIfInterested cb stack e c.1 >>= k' :=
  (forget_bind fun c' _ => hk c').trans (congrArg (· >>= k') forget_check)

/-- **The log changes nothing** in a turn of the scan. A node is given to the callback at most once,
and what the logged one returns for it is what the other one returns. -/
theorem forget_scanNode (s : List CString × σ × List DWORD) (n : Node) :
    forget (fun s => (s.1, s.2.1)) (scanNode cb.logged s n) = scanNode cb (s.1, s.2.1) n := by
  obtain ⟨stack, c, log⟩ := s
  cases n with
  | element isEmpty prefixName localName attributes moveToElement =>
      refine (forget_bind (f := id) fun _ _ => ?_).trans (congrArg (· >>= _) forget_check)
      refine (forget_bind (f := id) fun _ _ => ?_).trans (congrArg (· >>= _) forget_check)
      refine (forget_bind (f := id) fun _ _ => ?_).trans (congrArg (· >>= _) forget_check)
      refine (forget_bind (f := id) fun _ _ => ?_).trans
        (congrArg (· >>= _) (forget_collectAttributes _ log))
      refine forget_checkIfInterested fun ⟨c', log'⟩ => ?_
      refine (forget_bind (f := Prod.fst) fun c'' _ => ?_).trans (congrArg (· >>= _) forget_check)
      cases isEmpty with
      | true => exact forget_checkIfInterested fun _ => rfl
      | false => rfl
  | endElement => exact forget_checkIfInterested fun _ => rfl
  | text value =>
      refine (forget_bind (f := id) fun _ _ => ?_).trans (congrArg (· >>= _) forget_check)
      exact forget_checkIfInterested fun _ => rfl
  | other => rfl

/-- **The log changes nothing.** So what is said of the codes of a scan is said of a scan that keeps
no log, as the code has it. -/
theorem scanXmlStream_logged (rd : Reading) (log : List DWORD) :
    (scanXmlStream cb.logged rd (c, log)).1 = (scanXmlStream cb rd c).1 ∧
      (scanXmlStream cb.logged rd (c, log)).2.1 = (scanXmlStream cb rd c).2 := by
  have hnodes : ∀ s : List CString × σ × List DWORD,
      forget (fun s => (s.1, s.2.1)) (scanNodes cb.logged rd.nodes s) =
        scanNodes cb rd.nodes (s.1, s.2.1) := by
    induction rd.nodes with
    | nil => exact fun _ => rfl
    | cons n nodes ih =>
        intro s
        rw [scanNodes, List.foldlM_cons, scanNodes, List.foldlM_cons]
        exact (forget_bind fun s' _ => ih s').trans (congrArg (· >>= _) (forget_scanNode s n))
  have h := hnodes ([], c, log)
  unfold scanXmlStream
  split_ifs
  · exact ⟨rfl, rfl⟩
  · exact ⟨rfl, rfl⟩
  · exact ⟨rfl, rfl⟩
  · rw [← h]
    cases scanNodes cb.logged rd.nodes ([], c, log) with
    | ok s => exact ⟨rfl, rfl⟩
    | error e => exact ⟨rfl, rfl⟩

/-- No code in a log is a failing one. -/
def Passed (log : List DWORD) : Prop := ∀ code ∈ log, FAILED code = false

/-- The scan ended with a failing code: that of the last call of the callback, or that of a call to
the reader. -/
def Stopped (hr : DWORD) (log : List DWORD) : Prop :=
  FAILED hr = true ∧ (Passed log ∨ ∃ log', log = log' ++ [hr] ∧ Passed log')

/-- **The log of a scan** holds no failing code before its last one. A code that fails ends the scan
at once, with that code, so behind it no other is recorded. -/
theorem logged_keeps : cb.logged.Keeps (fun c => Passed c.2) fun e => Stopped e.1 e.2.2 where
  fails p e c hc hf := ⟨hf, .inr ⟨c.2, rfl, hc⟩⟩
  keeps p e c hc hf := by
    intro code hm
    rcases List.mem_append.1 hm with hm | hm
    · exact hc code hm
    · exact List.mem_singleton.1 hm ▸ hf

/-- **How a scan ends**: with `0` and no failing code, or stopped. It is stopped by the reader or by
the first code of the callback that fails, and returns the one that has stopped it. -/
theorem scanXmlStream_log (cb : Callback σ) (rd : Reading) (c : σ) :
    ((scanXmlStream cb.logged rd (c, [])).1 = 0 ∧
        Passed (scanXmlStream cb.logged rd (c, [])).2.2) ∨
      Stopped (scanXmlStream cb.logged rd (c, [])).1
        (scanXmlStream cb.logged rd (c, [])).2.2 :=
  (logged_keeps.scanXmlStream (c := (c, [])) rd (fun _ _ hf _ hc => ⟨hf, .inl hc⟩)
    fun _ h => absurd h List.not_mem_nil).imp_left fun h => ⟨h.1, h.2.1⟩

/-- The codes that the callback returns in a scan. -/
def codes (cb : Callback σ) (rd : Reading) (c : σ) : List DWORD :=
  (scanXmlStream cb.logged rd (c, [])).2.2

/-- **Every error of the callback is reported**: at a code that is not zero the scan stops and returns
it as a failure, and the caller leaves with an error. -/
def Reported (cb : Callback σ) (rd : Reading) (c : σ) : Prop :=
  ∀ before code after, codes cb rd c = before ++ code :: after → code ≠ 0 →
    after = [] ∧ (scanXmlStream cb rd c).1 = code ∧ FAILED code = true ∧
      ∀ t : Test, ∃ Error, t.leaves (scanXmlStream cb rd c).1 = some Error ∧ Error.ifError = true

/-- A result that has failed is an error. -/
theorem ifError_of_FAILED {hr : DWORD} (h : FAILED hr = true) :
    (S3Error.ofWin32 hr).ifError = true := by
  have hne : hr ≠ ERROR_SUCCESS := fun h0 => by rw [h0] at h; exact absurd h (by decide)
  simp [hne]

/-- A caller leaves with a failure, however it tests it. -/
theorem Test.leaves_of_FAILED {hr : DWORD} (h : FAILED hr = true) (t : Test) :
    t.leaves hr = some (.ofWin32 hr) := by
  have hne : hr ≠ ERROR_SUCCESS := fun h0 => by rw [h0] at h; exact absurd h (by decide)
  cases t <;> simp [Test.leaves, h, hne]

/-- It goes on with `0`. -/
@[simp] theorem Test.leaves_zero (t : Test) : t.leaves 0 = none := by cases t <;> rfl

/-- **The errors of a callback are reported** if and only if each code that it returns and that is not
zero is a failing `HRESULT`. -/
theorem errors_reported (cb : Callback σ) (rd : Reading) (c : σ) :
    Reported cb rd c ↔ ∀ code ∈ codes cb rd c, code ≠ 0 → FAILED code = true := by
  constructor
  · intro h code hm hne
    obtain ⟨before, after, heq⟩ := List.append_of_mem hm
    exact (h before code after heq hne).2.2.1
  · intro h before code after heq hne
    have hfail : FAILED code = true := h code (by simp [heq]) hne
    have hnot : ∀ log, code ∈ log → ¬Passed log := fun log hm hp =>
      absurd (hfail.symm.trans (hp code hm)) (by decide)
    rw [← (scanXmlStream_logged rd []).1]
    obtain ⟨-, hp⟩ | ⟨hhr, hp | ⟨log', hlog, hp⟩⟩ := scanXmlStream_log cb rd c
    · exact absurd hp (hnot _ (by rw [← codes, heq]; simp))
    · exact absurd hp (hnot _ (by rw [← codes, heq]; simp))
    · have hcodes := heq.symm.trans hlog
      rcases List.eq_nil_or_concat after with rfl | ⟨after', x, rfl⟩
      · obtain ⟨-, hx⟩ := List.append_inj' hcodes rfl
        obtain rfl := (List.cons.inj hx).1
        exact ⟨rfl, rfl, hhr, fun t => ⟨_, t.leaves_of_FAILED hhr, ifError_of_FAILED hhr⟩⟩
      · rw [List.concat_eq_append, ← List.cons_append, ← List.append_assoc] at hcodes
        obtain ⟨hx, -⟩ := List.append_inj' hcodes rfl
        exact absurd hp (hnot _ (by rw [← hx]; simp))

end

end Xml
end ECSUtil
