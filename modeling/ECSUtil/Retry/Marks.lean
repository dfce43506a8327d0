/-
# Which addresses are marked as bad

What a call to `SendRequest` does to `BadIPMap`.  The addresses at which an attempt failed with an error
of WinHTTP are marked once another attempt succeeds.  The addresses are taken in turn, so that attempt
may be at one of them again, which is then marked as well: `marks_kept_iff`.

The addresses that failed are those of the attempts that were made (`mem_used`), whatever the order,
and what is written to the map is a mark for each of them (`find_logged`).  The address of the last
attempt is one of them exactly if an earlier attempt failed there.
-/

import ECSUtil.Retry.Send

namespace ECSUtil
namespace Retry

/-- The address through which the request succeeded. -/
def Course.served (r : Course) : Option CString :=
  if r.Error.ifError then none else r.made.getLast?.map Prod.fst

/-- **Only what failed is marked**: a mark that was not there is set only when the request succeeded
through another address, and the one through which it succeeded is not marked. -/
structure MarksKept (c : Host) (s : Selection) (r : Course) : Prop where
  added : ∀ k ftError, (k, ftError) ∈ r.selection.BadIPMap → (k, ftError) ∉ s.BadIPMap →
    k.sHostName = c.sHost ∧ ∃ sIP ∈ r.served, sIP ≠ k.sIP
  served : ∀ sIP ∈ r.served, r.selection.marked c sIP = false

/-- The addresses at which an attempt failed, before the last one, with an error of WinHTTP. -/
def failedIPs (cfg : Config) (made : List (CString × Attempt)) : List CString :=
  (made.dropLast.filter fun p => cfg.host.ifMarkIPBad p.2.error.dwError).map Prod.fst

/-- The last attempt succeeds at an address at which another one failed, and there is an address
that neither failed nor is marked. -/
def CameBack (cfg : Config) (r : Course) : Prop :=
  cfg.host.bTestConnection = false ∧ (∃ sIP ∈ r.served, sIP ∈ failedIPs cfg r.made) ∧
    ∃ sIP ∈ cfg.IPListHost, sIP ∉ failedIPs cfg r.made ∧ r.selection.marked cfg.host sIP = false

section

variable {cfg : Config} {outcome : ℕ → Attempt} {i left : ℕ} {a : Attempt} {s : Selection}
  {IPUsed : List CString} {Error : S3Error} {c : Host} {IPListLocal : List CString}

/-- The request is at an address of the list that is not marked. -/
def Chosen (cfg : Config) (s : Selection) : Prop :=
  s.currentServerIP cfg.IPListHost ∈ cfg.IPListHost ∧
    s.marked cfg.host (s.currentServerIP cfg.IPListHost) = false

/-- An address that is found is in the list, and is not marked. -/
theorem chosen_getNextECSIP {ftNow : UInt64}
    (h : (s.getNextECSIP cfg.host cfg.IPListHost ftNow).2 = true) :
    Chosen cfg (s.getNextECSIP cfg.host cfg.IPListHost ftNow).1 := by
  have hne : cfg.IPListHost ≠ [] := by
    intro hnil
    rw [Selection.getNextECSIP, if_pos hnil] at h
    exact Bool.false_ne_true h
  obtain ⟨hlt, hgood⟩ := Selection.found_unmarked hne h
  have hcurrent : (s.getNextECSIP cfg.host cfg.IPListHost ftNow).1.currentServerIP cfg.IPListHost =
      cfg.IPListHost[(s.getNextECSIP cfg.host cfg.IPListHost ftNow).1.iIPList] := by
    rw [Selection.currentServerIP, if_neg hne, if_neg (Nat.not_le.2 hlt),
      List.getD_eq_getElem?_getD, List.getElem?_eq_getElem hlt, Option.getD_some]
  unfold Chosen
  rw [hcurrent]
  exact ⟨List.getElem_mem hlt, hgood⟩

/-- The addresses to be marked are those before, and the one that failed now. -/
theorem mem_used {sIP x : CString} : x ∈ used cfg IPUsed sIP a ↔
    x ∈ IPUsed ∨ x = sIP ∧ cfg.host.ifMarkIPBad a.error.dwError = true := by
  unfold used
  split_ifs with h
  · rw [Bool.and_eq_true] at h
    simp [h.1, or_comm]
  · refine (or_iff_left_of_imp ?_).symm
    rintro ⟨rfl, hbad⟩
    simpa [hbad] using h

/-- **What the attempts of a successful request leave**: marks that were there, the addresses that
failed, and the last address, which is not marked. -/
structure Served (cfg : Config) (s : Selection) (IPUsed : List CString) (r : Course) : Prop where
  subset : ∀ e ∈ r.selection.BadIPMap, e ∈ s.BadIPMap
  collected : ∀ sIP ∈ r.served, ∀ x, x ∈ r.IPUsed ↔ x ∈ IPUsed ∨ x ∈ failedIPs cfg r.made
  unmarked : ∀ sIP ∈ r.served, sIP ∈ cfg.IPListHost ∧ r.selection.marked cfg.host sIP = false

/-- A request that failed. -/
theorem Served.of_ifError {r : Course} (hsubset : ∀ e ∈ r.selection.BadIPMap, e ∈ s.BadIPMap)
    (h : r.Error.ifError = true) : Served cfg s IPUsed r := by
  have hnone : r.served = none := if_pos h
  refine ⟨hsubset, ?_, ?_⟩ <;> rw [hnone] <;> exact fun _ h => absurd h (by simp)

/-- The last attempt stays the last one. -/
theorem served_prepend {r : Course} {p : CString × Attempt}
    (hlast : r.Error.ifError = false → r.made ≠ []) : (r.prepend p).served = r.served := by
  unfold Course.served Course.prepend
  dsimp only
  split_ifs with herror
  · rfl
  · obtain ⟨made, q, hmade⟩ :=
      (List.eq_nil_or_concat r.made).resolve_left (hlast (Bool.eq_false_iff.2 herror))
    rw [hmade, List.concat_eq_append, ← List.cons_append, List.getLast?_concat, List.getLast?_concat]

/-- An attempt adds its own address to those that failed. -/
theorem mem_failedIPs_cons {made : List (CString × Attempt)} (hne : made ≠ []) {sIP x : CString} :
    x ∈ failedIPs cfg ((sIP, a) :: made) ↔
      x = sIP ∧ cfg.host.ifMarkIPBad a.error.dwError = true ∨ x ∈ failedIPs cfg made := by
  unfold failedIPs
  rw [List.dropLast_cons_of_ne_nil hne, List.filter_cons]
  split_ifs with hbad <;> simp [hbad]

/-- An attempt with others behind it. -/
theorem Served.prepend {r : Course} {s' : Selection} (h : Served cfg s' (used cfg IPUsed sIP a) r)
    (hsubset : ∀ e ∈ s'.BadIPMap, e ∈ s.BadIPMap) (hlast : r.Error.ifError = false → r.made ≠ []) :
    Served cfg s IPUsed (r.prepend (sIP, a)) := by
  refine ⟨fun e he => hsubset e (h.subset e he), fun x hx y => ?_, fun x hx => ?_⟩
  · rw [served_prepend hlast] at hx
    have hne : r.made ≠ [] := by
      refine hlast (Bool.eq_false_iff.2 fun herror => ?_)
      rw [Course.served, if_pos herror] at hx
      exact absurd hx (by simp)
    refine (h.collected x hx y).trans ?_
    rw [mem_used, or_assoc]
    exact or_congr_right (mem_failedIPs_cons hne).symm
  · rw [served_prepend hlast] at hx
    exact h.unmarked x hx

/-- The turns that are left collect the addresses that failed, and end at one that is not marked. -/
theorem served_retryLoop (hleft : left = 0 → Error.ifError = true) (hs : Chosen cfg s) :
    Served cfg s IPUsed (retryLoop cfg outcome left i s IPUsed Error) := by
  induction left generalizing i s IPUsed Error with
  | zero => exact .of_ifError (fun _ he => he) (hleft rfl)
  | succ left ih =>
      have herror := ifError_error (outcome i)
      unfold retryLoop
      dsimp only
      cases hjudge : judge cfg i (outcome i) with
      | succeeded =>
          have hserved : ∀ sIP ∈ Course.served {
              Error := (outcome i).Error.setError, selection := s, IPUsed := IPUsed
              made := [(s.currentServerIP cfg.IPListHost, outcome i)] },
              s.currentServerIP cfg.IPListHost = sIP := by
            intro sIP hsIP
            unfold Course.served at hsIP
            split_ifs at hsIP
            · exact absurd hsIP (by simp)
            · exact Option.some.inj hsIP
          refine ⟨fun _ he => he, fun _ _ x => (or_iff_left ?_).symm, fun sIP hsIP => ?_⟩
          · exact List.not_mem_nil
          · exact hserved sIP hsIP ▸ hs
      | failed => exact .of_ifError (fun _ he => he) herror
      | again =>
          dsimp only
          split_ifs with hfound
          · refine (ih (fun _ => herror) (chosen_getNextECSIP hfound)).prepend
              (fun _ he => Selection.getNextECSIP_subset _ he) fun hsuccess => ?_
            obtain ⟨p, hp, -⟩ := (policy_retryLoop fun _ => herror).success hsuccess
            rintro hnil
            rw [hnil] at hp
            exact absurd hp (by simp)
          · exact .of_ifError (fun _ he => Selection.getNextECSIP_subset _ he) herror

/-- A request collects the addresses that failed, and ends at one that is not marked. -/
theorem served_course (cfg : Config) (env : Environment) (s : Selection) :
    Served cfg s [] (course cfg env s) := by
  have hleft : cfg.limit = 0 → ({} : S3Error).ifError = true := fun h =>
    absurd h (Nat.pos_iff_ne_zero.1 cfg.limit_pos)
  have hloop : ∀ s' : Selection, Chosen cfg s' → (∀ e ∈ s'.BadIPMap, e ∈ s.BadIPMap) →
      Served cfg s [] (retryLoop cfg env.outcome cfg.limit 0 s' [] {}) := by
    intro s' hs' hsubset
    have h : Served cfg s' [] (retryLoop cfg env.outcome cfg.limit 0 s' [] {}) :=
      served_retryLoop hleft hs'
    exact ⟨fun e he => hsubset e (h.subset e he), h.collected, h.unmarked⟩
  have hsecond : ∀ e ∈ (((s.getNextECSIP cfg.host cfg.IPListHost env.ftFirst).1.testAllIPBad cfg.host
      cfg.IPListHost).getNextECSIP cfg.host cfg.IPListHost env.ftSecond).1.BadIPMap,
      e ∈ s.BadIPMap := fun e he => Selection.getNextECSIP_subset e
    (Selection.testAllIPBad_subset e (Selection.getNextECSIP_subset e he))
  unfold course
  dsimp only
  split_ifs with hfound hfound
  · exact hloop _ (chosen_getNextECSIP hfound) fun _ he => Selection.getNextECSIP_subset _ he
  · exact hloop _ (chosen_getNextECSIP hfound) hsecond
  · refine .of_ifError hsecond ?_
    exact S3Error.ifError_of_dwError (show SEC_E_NO_IP_ADDRESSES ≠ ERROR_SUCCESS by decide)

/-- The map with the collected addresses, before `TestAllIPBad`. -/
def Course.logged (c : Host) (ftNow : UInt64) (r : Course) : Selection :=
  { r.selection with
    BadIPMap := r.IPUsed.foldl (fun m sIP => m.assign { sHostName := c.sHost, sIP := sIP } ftNow)
      r.selection.BadIPMap }

/-- A mark is that of the request where it failed, and otherwise as before. -/
theorem find_logged {r : Course} {ftNow : UInt64} (k : BadIpKey) :
    (r.logged c ftNow).BadIPMap.find k =
      if k.sHostName = c.sHost ∧ k.sIP ∈ r.IPUsed then some ftNow
      else r.selection.BadIPMap.find k := by
  have hfold := SortedMap.find_foldl_assign
    (r.IPUsed.map fun sIP => ({ sHostName := c.sHost, sIP := sIP } : BadIpKey)) r.selection.BadIPMap
    ftNow k
  rw [List.foldl_map] at hfold
  have hmem : k ∈ r.IPUsed.map (fun sIP => ({ sHostName := c.sHost, sIP := sIP } : BadIpKey)) ↔
      k.sHostName = c.sHost ∧ k.sIP ∈ r.IPUsed := by
    rw [List.mem_map]
    exact ⟨fun ⟨_, hmem, hk⟩ => hk ▸ ⟨rfl, hmem⟩, fun ⟨hhost, hmem⟩ => ⟨k.sIP, hmem, hhost ▸ rfl⟩⟩
  by_cases hk : k.sHostName = c.sHost ∧ k.sIP ∈ r.IPUsed
  · rw [if_pos hk]
    exact hfold.trans (if_pos (hmem.2 hk))
  · rw [if_neg hk]
    exact hfold.trans (if_neg fun h => hk (hmem.1 h))

/-- Marked are those that failed and those that were marked before. -/
theorem marked_logged {r : Course} {ftNow : UInt64} {sIP : CString} :
    (r.logged c ftNow).marked c sIP = true ↔
      sIP ∈ r.IPUsed ∨ r.selection.marked c sIP = true := by
  unfold Selection.marked
  rw [find_logged]
  by_cases h : sIP ∈ r.IPUsed <;> simp [h]

/-- What the log adds. -/
theorem mem_logged {r : Course} {ftNow ftError : UInt64} {k : BadIpKey}
    (h : (k, ftError) ∈ (r.logged c ftNow).BadIPMap) :
    (k, ftError) ∈ r.selection.BadIPMap ∨ k.sHostName = c.sHost ∧ k.sIP ∈ r.IPUsed := by
  rw [← SortedMap.find_eq_some, find_logged] at h
  split_ifs at h with hk
  · exact .inr hk
  · exact .inl (SortedMap.find_eq_some.1 h)

variable {env : Environment}

/-- A request was served at the address where its course ended. -/
theorem served_sendRequest : (sendRequest cfg env s).served = (course cfg env s).served := by
  unfold Course.served
  exact if_congr (by simp [sendRequest]) rfl rfl

/-- A request that does not log keeps the marks as they are. -/
theorem selection_sendRequest :
    (sendRequest cfg env s).selection = (course cfg env s).selection ∨
      cfg.host.bTestConnection = false ∧ (course cfg env s).Error.ifError = false ∧
        (sendRequest cfg env s).selection =
          ((course cfg env s).logged cfg.host env.ftLog).testAllIPBad cfg.host cfg.IPListHost := by
  unfold sendRequest Selection.logBadIPAddr
  dsimp only
  split_ifs with hlog htest
  · exact .inl rfl
  · simp only [Bool.and_eq_true, Bool.not_eq_true'] at hlog
    exact .inr ⟨Bool.eq_false_iff.2 htest, hlog.1, rfl⟩
  · exact .inl rfl

/-- A request that logs. -/
theorem selection_of_used (htest : cfg.host.bTestConnection = false)
    (hsuccess : (course cfg env s).Error.ifError = false) (hne : (course cfg env s).IPUsed ≠ []) :
    (sendRequest cfg env s).selection =
      ((course cfg env s).logged cfg.host env.ftLog).testAllIPBad cfg.host cfg.IPListHost := by
  unfold sendRequest Selection.logBadIPAddr
  dsimp only
  rw [if_pos (by simp [hsuccess, hne]), if_neg (by simp [htest])]
  rfl

/-- A success has its address. -/
theorem exists_served (h : (course cfg env s).Error.ifError = false) :
    ∃ sIP, sIP ∈ (course cfg env s).served := by
  obtain ⟨p, hp, -⟩ := (retry_policy cfg env s).success ((S3Error.ifError_setError _).trans h)
  refine ⟨p.1, ?_⟩
  rw [Course.served, if_neg (Bool.eq_false_iff.1 h)]
  exact Option.mem_map_of_mem Prod.fst hp

end

/-- **Which addresses are marked**: the attempts of a request mark what failed and nothing else, if
and only if the one that succeeds is not at an address that failed before, unless all are marked
then or nothing is, for a test connection. -/
theorem marks_kept_iff (cfg : Config) (env : Environment) (s : Selection) :
    MarksKept cfg.host s (sendRequest cfg env s) ↔ ¬CameBack cfg (course cfg env s) := by
  have hcourse := served_course cfg env s
  constructor
  · rintro h ⟨htest, ⟨sIP, hsIP, hfailed⟩, other, hlisted, hgood, hunmarked⟩
    have hsuccess : (course cfg env s).Error.ifError = false := by
      refine Bool.eq_false_iff.2 fun herror => ?_
      rw [Course.served, if_pos herror] at hsIP
      exact absurd hsIP (by simp)
    have hused : sIP ∈ (course cfg env s).IPUsed := (hcourse.collected sIP hsIP sIP).2 (.inr hfailed)
    have hselection := selection_of_used htest hsuccess (List.ne_nil_of_mem hused)
    have hother : ((course cfg env s).logged cfg.host env.ftLog).marked cfg.host other = false := by
      rw [← Bool.not_eq_true, marked_logged, hcourse.collected sIP hsIP, hunmarked]
      simp [hgood]
    -- the other address stays good, and so the marks stay
    rw [Selection.testAllIPBad_of_unmarked hlisted hother] at hselection
    have hleft := h.served sIP (served_sendRequest.symm ▸ hsIP)
    rw [hselection] at hleft
    exact Bool.false_ne_true (hleft.symm.trans (marked_logged.2 (.inl hused)))
  · intro h
    -- an address that comes back takes all marks of the host with it
    have hreset : cfg.host.bTestConnection = false → ∀ sIP ∈ (course cfg env s).served,
        sIP ∈ failedIPs cfg (course cfg env s).made → ∀ x,
        (((course cfg env s).logged cfg.host env.ftLog).testAllIPBad cfg.host
          cfg.IPListHost).marked cfg.host x = false := by
      intro htest sIP hsIP hfailed
      refine Selection.marked_testAllIPBad fun other hlisted => ?_
      rw [marked_logged, hcourse.collected sIP hsIP]
      by_contra hgood
      simp only [List.not_mem_nil, false_or, not_or, Bool.not_eq_true] at hgood
      exact h ⟨htest, ⟨sIP, hsIP, hfailed⟩, other, hlisted, hgood⟩
    rcases selection_sendRequest with hselection | ⟨htest, hsuccess, hselection⟩
    · refine ⟨fun k ftError hmem hnew => absurd (hcourse.subset _ (hselection ▸ hmem)) hnew,
        fun sIP hsIP => ?_⟩
      rw [hselection]
      exact (hcourse.unmarked sIP (served_sendRequest ▸ hsIP)).2
    · refine ⟨fun k ftError hmem hnew => ?_, fun sIP hsIP => ?_⟩
      · rw [hselection] at hmem
        obtain ⟨sIP, hsIP⟩ := exists_served hsuccess
        rcases mem_logged (Selection.testAllIPBad_subset _ hmem) with hold | ⟨hhost, hused⟩
        · exact absurd (hcourse.subset _ hold) hnew
        · refine ⟨hhost, sIP, served_sendRequest.symm ▸ hsIP, ?_⟩
          rintro rfl
          have hfailed := ((hcourse.collected _ hsIP _).1 hused).resolve_left List.not_mem_nil
          have hmarked : (((course cfg env s).logged cfg.host env.ftLog).testAllIPBad cfg.host
              cfg.IPListHost).marked cfg.host k.sIP = true :=
            Selection.marked_iff.2 ⟨ftError, hhost ▸ hmem⟩
          exact Bool.false_ne_true ((hreset htest _ hsIP hfailed _).symm.trans hmarked)
      · rw [served_sendRequest] at hsIP
        rw [hselection]
        by_cases hfailed : sIP ∈ failedIPs cfg (course cfg env s).made
        · exact hreset htest sIP hsIP hfailed sIP
        · refine Selection.marked_of_subset Selection.testAllIPBad_subset ?_
          rw [← Bool.not_eq_true, marked_logged, hcourse.collected sIP hsIP,
            (hcourse.unmarked sIP hsIP).2]
          simp [hfailed]

/-- The first address has an error of WinHTTP, the second one a status, and then the first one
succeeds. -/
def cameBack : Environment where
  outcome i :=
    if i = 0 then { Error := .ofWin32 12029, bGotServerResponse := false }
    else if i = 1 then { Error := { dwHttpError := 503 } }
    else {}

/-- The address through which the request succeeds is marked. -/
theorem cameBack_marks : ¬MarksKept twoAddresses.host {} (sendRequest twoAddresses cameBack {}) := by
  intro h
  have hserved := h.served "10.0.0.2".toList (by decide)
  exact absurd hserved (by decide)

end Retry
end ECSUtil
