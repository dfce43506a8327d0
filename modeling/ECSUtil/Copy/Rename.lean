/-
# Renaming loses no object

`RenameS3` deletes the source when the copy returned no error.  `S3MultiPartComplete` looks for an
error in the body of a response without one, but the request that copies an object at once does
not: `rename_safe`.

What a copy may do is said without its replies (`Copied`): it deletes nothing, and returns no error
only when it is reported complete.  It holds of both ways to copy (`copied_copyS3`), unless the one
response to a single copy is an error that only its body tells; and what `RenameS3` does behind such
a copy is safe (`Copied.safe`).  In the case that is left the source is deleted, and the copy failed
(`not_safe_of_errorBodyIgnored`).
-/

import ECSUtil.Copy.Copy

namespace ECSUtil
namespace Copy

open Xml

/-- A reply without an error, whose body is no `Error` document either. -/
def succeeded (reply : Reply) : Bool :=
  !reply.error.ifError && decide ((errorBody reply).sS3Code = [])

/-- The reply to a request reports that the copy is complete. -/
def reportsComplete (replies : Replies) : Request → Bool
  | .copy _ _ => succeeded replies.copy
  | .complete _ _ => succeeded replies.complete
  | _ => false

/-- A request that deletes an object. -/
def isDelete : Request → Bool
  | .delete _ => true
  | _ => false

/-- **The object is never lost**: it is deleted only after the copy is reported complete, and where
it never is, that is an error and nothing is deleted. -/
structure Safe (replies : Replies) (r : S3Error × List Request) : Prop where
  deleted : ∀ sent path rest, r.2 = sent ++ .delete path :: rest →
    ∃ q ∈ sent, reportsComplete replies q = true
  untouched : (∀ q ∈ r.2, reportsComplete replies q = false) →
    r.1.ifError = true ∧ ∀ q ∈ r.2, isDelete q = false

/-- A copy that deletes nothing, and returns no error only when it is reported complete. -/
structure Copied (replies : Replies) (r : S3Error × List Request) : Prop where
  undeleted : ∀ q ∈ r.2, isDelete q = false
  reported : r.1.ifError = false → ∃ q ∈ r.2, reportsComplete replies q = true

/-- The object is copied by one request, whose response is no error but has one as its body. -/
def errorBodyIgnored (replies : Replies) (sOldPath sNewPath : CString) (pMDList : List Header) :
    Prop :=
  sOldPath ≠ [] ∧ sNewPath ≠ [] ∧ sOldPath.getLast? ≠ some '/' ∧
    replies.head.1.ifError = false ∧
    (readSource (readHeaders replies.head.2) pMDList).1 < singleCopyLimit ∧
    replies.copy.error.ifError = false ∧ (errorBody replies.copy).sS3Code ≠ []

section

variable {replies : Replies}

/-- A code that is not that of success is an error. -/
theorem ifError_ofWin32 {dwError : DWORD} (h : dwError ≠ ERROR_SUCCESS) :
    (S3Error.ofWin32 dwError).ifError = true := by
  simp [S3Error.ifError, S3Error.ofWin32, h]

/-- A code that fails is not that of success. -/
theorem ne_success_of_failed {dwError : DWORD} (h : FAILED dwError = true) :
    dwError ≠ ERROR_SUCCESS := by
  rintro rfl
  exact absurd h (by decide)

/-- A completion without an error is one that the server reports. -/
theorem succeeded_of_complete {reply : Reply} (h : (s3MultiPartComplete reply).ifError = false) :
    succeeded reply = true := by
  unfold s3MultiPartComplete at h
  by_cases herror : reply.error.ifError = true
  · rw [if_pos herror] at h
    exact absurd (herror.symm.trans h) (by simp)
  · by_cases hcode : (errorBody reply).sS3Code = []
    · rw [Bool.not_eq_true] at herror
      simp [succeeded, herror, hcode]
    · rw [if_neg herror] at h
      simp [hcode, S3Error.ifError] at h

/-- A part that is not copied is an error. -/
theorem ifError_of_s3MultiPartUpload {reply : Reply} {Error : S3Error}
    (h : s3MultiPartUpload reply = .error Error) : Error.ifError = true := by
  unfold s3MultiPartUpload at h
  dsimp only at h
  split_ifs at h with herror hfailed
  · rwa [← Except.error.inj h]
  · rw [← Except.error.inj h]
    exact ifError_ofWin32 (ne_success_of_failed hfailed)
  · rw [← Except.error.inj h]
    exact ifError_ofWin32 (by decide)

/-- Where a part fails, the copy of the parts returns an error. -/
theorem ifError_of_copyParts {info : S3UploadPartInfo} {ranges : List (ℕ × ℕ × ℕ)}
    {Error : S3Error} (h : (copyParts replies info ranges).2 = .error Error) :
    Error.ifError = true := by
  induction ranges with
  | nil => exact absurd h (by simp [copyParts])
  | cons p rest ih =>
      unfold copyParts at h
      cases hpart : s3MultiPartUpload (replies.copyPart p.1) with
      | error E =>
          simp only [hpart, Except.error.injEq] at h
          exact h ▸ ifError_of_s3MultiPartUpload hpart
      | ok sETag =>
          cases hrest : (copyParts replies info rest).2 with
          | error E =>
              simp only [hpart, hrest, Except.map, Except.error.injEq] at h
              exact ih (hrest.trans (congrArg Except.error h))
          | ok parts => simp [hpart, hrest, Except.map] at h

/-- The copy of the parts deletes nothing. -/
theorem not_delete_of_copyParts {info : S3UploadPartInfo} {ranges : List (ℕ × ℕ × ℕ)} :
    ∀ q ∈ (copyParts replies info ranges).1, isDelete q = false := by
  induction ranges with
  | nil => simp [copyParts]
  | cons p rest ih =>
      unfold copyParts
      cases s3MultiPartUpload (replies.copyPart p.1) with
      | error E => simp [isDelete]
      | ok sETag => simpa [isDelete] using ih

/-- What copied the parts, or did not. -/
theorem copied_finishCopy {info : S3UploadPartInfo}
    {r : List Request × Except S3Error (List (ℕ × CString))}
    (hsent : ∀ q ∈ r.1, isDelete q = false) (herror : ∀ Error, r.2 = .error Error →
      Error.ifError = true) : Copied replies (finishCopy replies info r) := by
  obtain ⟨sent, Error | parts⟩ := r
  · refine ⟨fun q hq => ?_, fun h => ?_⟩
    · rcases List.mem_append.1 hq with hq | hq
      · exact hsent q hq
      · exact List.mem_singleton.1 hq ▸ rfl
    · have hcopied : Error.ifError = true := herror Error rfl
      exact absurd (hcopied.symm.trans h) (by simp)
  · refine ⟨fun q hq => ?_, fun h => ?_⟩
    · rcases List.mem_append.1 hq with hq | hq
      · exact hsent q hq
      · rcases List.mem_cons.1 hq with rfl | hq
        · rfl
        · split_ifs at hq
          · exact List.mem_singleton.1 hq ▸ rfl
          · exact absurd hq List.not_mem_nil
    · exact ⟨.complete info parts, List.mem_append_right _ (List.mem_cons_self ..),
        succeeded_of_complete h⟩

/-- To initiate an upload deletes nothing and completes nothing. -/
theorem Copied.initiate {r : S3Error × List Request} (h : Copied replies r) (path : CString)
    (headers : Headers) : Copied replies (r.1, .initiate path headers :: r.2) := by
  refine ⟨fun q hq => ?_, fun herror => ?_⟩
  · rcases List.mem_cons.1 hq with rfl | hq
    · rfl
    · exact h.undeleted q hq
  · obtain ⟨q, hq, hcomplete⟩ := h.reported herror
    exact ⟨q, List.mem_cons_of_mem _ hq, hcomplete⟩

/-- Whatever the parts of the object are. -/
theorem copied_copyParts (info : S3UploadPartInfo) (ranges : List (ℕ × ℕ × ℕ)) :
    Copied replies (finishCopy replies info (copyParts replies info ranges)) :=
  copied_finishCopy not_delete_of_copyParts fun _ h => ifError_of_copyParts h

/-- An error after requests that are no deletions. -/
theorem copied_of_ifError {r : S3Error × List Request} (hsent : ∀ q ∈ r.2, isDelete q = false)
    (h : r.1.ifError = true) : Copied replies r :=
  ⟨hsent, fun hno => absurd (h.symm.trans hno) (by simp)⟩

/-- A copy by parts deletes nothing, and returns no error only when it is reported complete. -/
theorem copied_copyMultipart (t : Stamp) (sTargetPath : CString) (ullObjSize : ℕ)
    (MDList : List Header) : Copied replies (copyMultipart replies t sTargetPath ullObjSize MDList) := by
  by_cases htarget : sTargetPath = []
  · rw [htarget, copyMultipart_nil]
    exact copied_of_ifError (by simp) (ifError_ofWin32 (by decide))
  by_cases hinitiate : (s3MultiPartInitiate replies.initiate sTargetPath).1.ifError = true
  · rw [copyMultipart_of_ifError replies t MDList htarget hinitiate]
    exact copied_of_ifError (by simp [isDelete]) hinitiate
  · rw [copyMultipart_of_not_ifError replies t MDList htarget hinitiate]
    exact (copied_copyParts _ _).initiate _ _

/-- **A copy deletes nothing**, and without an error it is reported complete, unless the body of the
one response is an error. -/
theorem copied_copyS3 (t : Stamp) (sSrcPath sTargetPath : CString) (bCopyMD : Bool)
    (ullObjSize : ℕ) (MDList : List Header)
    (hbody : ullObjSize < singleCopyLimit → replies.copy.error.ifError = false →
      (errorBody replies.copy).sS3Code = []) :
    Copied replies (copyS3 replies t sSrcPath sTargetPath bCopyMD ullObjSize MDList) := by
  by_cases h : ullObjSize < singleCopyLimit
  · rw [copyS3_of_lt replies t sSrcPath sTargetPath bCopyMD MDList h]
    refine ⟨by simp [isDelete], fun herror => ⟨_, List.mem_singleton_self _, ?_⟩⟩
    have hcode : (errorBody replies.copy).sS3Code = [] := hbody h herror
    have hnone : replies.copy.error.ifError = false := herror
    simp [reportsComplete, succeeded, hnone, hcode]
  · rw [copyS3_of_not_lt replies t sSrcPath sTargetPath bCopyMD MDList h]
    exact copied_copyMultipart t sTargetPath ullObjSize MDList

/-- A request after others that delete nothing. -/
theorem safe_of_delete {sent : List Request} {path : CString} {Error : S3Error}
    (hsent : ∀ q ∈ sent, isDelete q = false) (hreport : ∃ q ∈ sent, reportsComplete replies q = true) :
    Safe replies (Error, sent ++ [.delete path]) := by
  obtain ⟨q, hq, hcomplete⟩ := hreport
  refine ⟨fun pre path' rest heq => ?_, fun h => ?_⟩
  · rcases List.append_eq_append_iff.1 heq with ⟨l, hl, -⟩ | ⟨l, hl, hrest⟩
    · exact ⟨q, hl ▸ List.mem_append_left _ hq, hcomplete⟩
    · cases l with
      | nil => exact ⟨q, (List.append_nil pre ▸ hl) ▸ hq, hcomplete⟩
      | cons q' l =>
          -- the deletion is among the requests before it
          obtain ⟨hq', -⟩ := List.cons.inj hrest
          have hno : isDelete q' = false := hsent q' (hl ▸ by simp)
          rw [← hq', isDelete] at hno
          exact absurd hno (by simp)
  · exact absurd ((h q (List.mem_append_left _ hq)).symm.trans hcomplete) (by simp)

/-- An error after requests that delete nothing. -/
theorem safe_of_ifError {sent : List Request} {Error : S3Error}
    (hsent : ∀ q ∈ sent, isDelete q = false) (herror : Error.ifError = true) :
    Safe replies (Error, sent) := by
  refine ⟨fun pre path rest heq => ?_, fun _ => ⟨herror, hsent⟩⟩
  have hno : isDelete (.delete path) = false := by
    refine hsent _ ?_
    have heq' : sent = pre ++ .delete path :: rest := heq
    rw [heq']
    exact List.mem_append_right _ (List.mem_cons_self ..)
  exact absurd hno (by simp [isDelete])

/-- Requests that neither delete nor report. -/
theorem quiet_askSource (replies : Replies) (sOldPath versionId : CString) :
    ∀ q ∈ askSource sOldPath versionId,
      isDelete q = false ∧ reportsComplete replies q = false := by
  simp [askSource, isDelete, reportsComplete]

/-- The access control list that follows deletes nothing and completes nothing. -/
theorem quiet_putAcl (replies : Replies) (sNewPath : CString) (acl : S3Error × List Body.AclEntry) :
    ∀ q ∈ (if acl.1.ifError then [] else [Request.putAcl sNewPath acl.2]),
      isDelete q = false ∧ reportsComplete replies q = false := by
  split_ifs <;> simp [isDelete, reportsComplete]

/-- **What follows a copy is safe.** The source is deleted only if the copy is known to be there,
and what is done in between does not change it. -/
theorem Copied.safe {copied : S3Error × List Request} (h : Copied replies copied)
    (sOldPath sNewPath versionId : CString) :
    Safe replies (finishRename replies sOldPath sNewPath versionId false copied) := by
  have hasked := fun q hq => (quiet_askSource replies sOldPath versionId q hq).1
  unfold finishRename
  by_cases herror : copied.1.ifError = true
  · rw [if_pos herror]
    refine safe_of_ifError (fun q hq => ?_) herror
    exact (List.mem_append.1 hq).elim (hasked q) (h.undeleted q)
  · rw [if_neg herror, if_neg Bool.false_ne_true]
    obtain ⟨q, hq, hcomplete⟩ := h.reported (Bool.eq_false_iff.2 herror)
    refine safe_of_delete (fun q' hq' => ?_)
      ⟨q, List.mem_append_left _ (List.mem_append_right _ hq), hcomplete⟩
    rcases List.mem_append.1 hq' with hq' | hq'
    · exact (List.mem_append.1 hq').elim (hasked q') (h.undeleted q')
    · exact (quiet_putAcl replies sNewPath _ q' hq').1

/-- A copy that was not reported, and without an error, is no copy. -/
theorem not_safe_finishRename {copied : S3Error × List Request} (herror : copied.1.ifError = false)
    (hno : ∀ q ∈ copied.2, reportsComplete replies q = false)
    (sOldPath sNewPath versionId : CString) :
    ¬Safe replies (finishRename replies sOldPath sNewPath versionId false copied) := by
  intro h
  unfold finishRename at h
  rw [if_neg (Bool.eq_false_iff.1 herror), if_neg Bool.false_ne_true] at h
  obtain ⟨q, hq, hcomplete⟩ := h.deleted _ sOldPath [] rfl
  have hquiet : reportsComplete replies q = false := by
    rcases List.mem_append.1 hq with hq | hq
    · exact (List.mem_append.1 hq).elim
        (fun hq => (quiet_askSource replies sOldPath versionId q hq).2) (hno q)
    · exact (quiet_putAcl replies sNewPath _ q hq).2
  exact absurd (hquiet.symm.trans hcomplete) (by simp)

variable (replies) (t : Stamp) {sOldPath sNewPath : CString} (versionId : CString)
  (pMDList : List Header) (pDeleteTagParam : List CString)

/-- A rename that comes to the copy. -/
theorem renameS3_eq (hold : sOldPath ≠ []) (hnew : sNewPath ≠ [])
    (hslash : sOldPath.getLast? ≠ some '/') (hhead : ¬replies.head.1.ifError = true) :
    renameS3 replies t sOldPath sNewPath versionId false pMDList pDeleteTagParam =
      finishRename replies sOldPath sNewPath versionId false
        (copyS3 replies t sOldPath sNewPath false
          (readSource (readHeaders replies.head.2) pMDList).1
          ((readSource (readHeaders replies.head.2) pMDList).2.filter
            fun h => !pDeleteTagParam.contains h.sHeader)) :=
  (if_neg (not_or.2 ⟨hold, hnew⟩)).trans ((if_neg hslash).trans (if_neg hhead))

/-- **The source is deleted, and the copy failed.** The status of the reply was taken for a success,
while its body was an error; so the deletion goes on with nothing behind it. -/
theorem not_safe_of_errorBodyIgnored (h : errorBodyIgnored replies sOldPath sNewPath pMDList) :
    ¬Safe replies
      (renameS3 replies t sOldPath sNewPath versionId false pMDList pDeleteTagParam) := by
  obtain ⟨hold, hnew, hslash, hhead, hsize, herror, hcode⟩ := h
  rw [renameS3_eq replies t versionId pMDList pDeleteTagParam hold hnew hslash
    (Bool.eq_false_iff.1 hhead), copyS3_of_lt replies t sOldPath sNewPath false _ hsize]
  refine not_safe_finishRename herror (fun q hq => ?_) sOldPath sNewPath versionId
  rw [List.mem_singleton.1 hq]
  simp [reportsComplete, succeeded, hcode]

/-- The object is there, under one path or the other. -/
theorem safe_of_not_errorBodyIgnored (h : ¬errorBodyIgnored replies sOldPath sNewPath pMDList) :
    Safe replies
      (renameS3 replies t sOldPath sNewPath versionId false pMDList pDeleteTagParam) := by
  by_cases hpath : sOldPath = [] ∨ sNewPath = []
  · have heq : renameS3 replies t sOldPath sNewPath versionId false pMDList pDeleteTagParam =
        (.ofWin32 ERROR_INVALID_NAME, []) := if_pos hpath
    rw [heq]
    exact safe_of_ifError (by simp) (ifError_ofWin32 (by decide))
  by_cases hslash : sOldPath.getLast? = some '/'
  · have heq : renameS3 replies t sOldPath sNewPath versionId false pMDList pDeleteTagParam =
        (.ofWin32 ERROR_INVALID_FUNCTION, []) := (if_neg hpath).trans (if_pos hslash)
    rw [heq]
    exact safe_of_ifError (by simp) (ifError_ofWin32 (by decide))
  by_cases hhead : replies.head.1.ifError = true
  · have heq : renameS3 replies t sOldPath sNewPath versionId false pMDList pDeleteTagParam =
        (replies.head.1, askSource sOldPath versionId) :=
      (if_neg hpath).trans ((if_neg hslash).trans (if_pos hhead))
    rw [heq]
    have hquiet := quiet_askSource replies sOldPath versionId
    exact safe_of_ifError (fun q hq => (hquiet q hq).1) hhead
  obtain ⟨hold, hnew⟩ := not_or.1 hpath
  rw [renameS3_eq replies t versionId pMDList pDeleteTagParam hold hnew hslash hhead]
  refine (copied_copyS3 t sOldPath sNewPath false _ _ fun hsize herror => ?_).safe sOldPath
    sNewPath versionId
  by_contra hcode
  exact h ⟨hold, hnew, hslash, Bool.eq_false_iff.2 hhead, hsize, herror, hcode⟩

end

/-- **A rename never loses the object**, if and only if the one response to a copy is not an error
that its body alone tells. -/
theorem rename_safe (replies : Replies) (t : Stamp) (sOldPath sNewPath versionId : CString)
    (pMDList : List Header) (pDeleteTagParam : List CString) :
    Safe replies (renameS3 replies t sOldPath sNewPath versionId false pMDList pDeleteTagParam) ↔
      ¬errorBodyIgnored replies sOldPath sNewPath pMDList :=
  ⟨fun hsafe hignored => not_safe_of_errorBodyIgnored replies t versionId pMDList pDeleteTagParam
    hignored hsafe, safe_of_not_errorBodyIgnored replies t versionId pMDList pDeleteTagParam⟩

/-- The server copies nothing, and says so in the body of a response with the status 200. -/
def internalError : Replies :=
  let silent : Reply := { reading := { nodes := [], last := S_FALSE, last_ne := S_FALSE_ne_S_OK } }
  { getAcl := silent
    head := ({ dwHttpError := 200 }, [])
    copy :=
      { error := { dwHttpError := 200 }
        reading :=
          { nodes :=
              [element "Error".toList, element "Code".toList,
                .text { value := "InternalError".toList }, .endElement, .endElement]
            last := S_FALSE
            last_ne := S_FALSE_ne_S_OK } }
    initiate := silent
    copyPart := fun _ => silent
    complete := silent
    delete := { dwHttpError := 204 } }

/-- **The object is gone.** The copy is answered with a status of 200 and a body that says
`InternalError`, and the source is deleted. -/
theorem rename_loses : ¬Safe internalError
    (renameS3 internalError noon "/b/k".toList "/b/l".toList [] false [] []) :=
  not_safe_of_errorBodyIgnored internalError noon [] [] []
    ⟨by decide, by decide, by decide, by decide, by decide, by decide, by decide +kernel⟩

end Copy
end ECSUtil
