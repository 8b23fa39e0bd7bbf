import Lubko.Lib.Find
import Lubko.Lib.PyStr
import Mathlib.Data.Int.Notation

/-!
# Credentials of a source URL

`fetch_from_authority` shows a source URL in its errors without the credentials, and leaves out what
Git wrote when the URL has any. The label and that test look for the delimiters on their own, both
from the left, while Git takes the userinfo up to the last `@` of the authority.

What Git writes may name the credentials, so that the errors of two URLs are compared under every
text it may have written for each. `repr` of a string is a parameter.

* `hidden_iff` — when two URLs give the same errors.
* `redactSourceUrl_schemeUrl`, `redactSourceUrl_scpUrl` — what a label keeps of the userinfo.
* `credentials_hidden_iff` — when the errors tell two userinfos apart.
-/

namespace Lubko.Deploy

open Lubko.Lib

/-! ## The label -/

def atSign : CodePoint := 0x40

def colon : CodePoint := 0x3a

def slash : CodePoint := 0x2f

/-- `"://"`. -/
def schemeEnd : PyStr := [colon, slash, slash]

/-- `_has_userinfo`. -/
def hasUserinfo (sourceUrl : PyStr) : Bool :=
  if atSign ∉ sourceUrl then false
  else
    match find schemeEnd sourceUrl with
    | some i => atSign ∈ sourceUrl.drop (i + 3)
    | none =>
      match find [colon] sourceUrl with
      | some i => atSign ∈ sourceUrl.take i
      | none => atSign ∈ sourceUrl

/-- `_redact_source_url`. -/
def redactSourceUrl (sourceUrl : PyStr) : PyStr :=
  if atSign ∉ sourceUrl then sourceUrl
  else
    match find schemeEnd sourceUrl with
    | some i =>
      match after? atSign (sourceUrl.drop (i + 3)) with
      | some rest => sourceUrl.take (i + 3) ++ rest
      | none => sourceUrl
    | none => (after? atSign sourceUrl).getD sourceUrl

/-! ## The fetch -/

/-- How the Git process ends. -/
inductive GitRun where
  | timeoutExpired
  | osError (errno : Option ℤ)
  | completed (returncode : ℤ) (stderr : PyStr)

/-- How it ends, without what it wrote. -/
inductive GitOutcome where
  | timedOut
  | osError (errno : Option ℤ)
  | exited (returncode : ℤ)

def GitOutcome.run : GitOutcome → PyStr → GitRun
  | .timedOut, _ => .timeoutExpired
  | .osError errno, _ => .osError errno
  | .exited returncode, stderr => .completed returncode stderr

/-- `errno_part`. -/
def errnoPart : Option ℤ → PyStr
  | none => []
  | some n => if n = 0 then [] else (" (errno " ++ toString n ++ ")" : String)

/-- `detail`. -/
def stderrDetail (sourceUrl stderr : PyStr) : PyStr :=
  if hasUserinfo sourceUrl then []
  else if stderr = [] then [] else PyStr.ofString ": " ++ stderr.strip

section Fetch

variable (repr : PyStr → PyStr) (commit timeout : PyStr)

/-- `fetch_from_authority`: the message of the `ProvenanceError` it raises. -/
def fetchFromAuthority (sourceUrl : PyStr) : GitRun → Except PyStr Unit
  | .timeoutExpired =>
    .error (PyStr.ofString "fetching commit " ++ commit ++
      PyStr.ofString " from source authority " ++ repr (redactSourceUrl sourceUrl) ++
        (PyStr.ofString " timed out after " ++ timeout ++ PyStr.ofString "s"))
  | .osError errno =>
    .error (PyStr.ofString "could not execute git fetch from source authority " ++
      repr (redactSourceUrl sourceUrl) ++ (PyStr.ofString " for commit " ++ commit ++
        errnoPart errno))
  | .completed returncode stderr =>
    if returncode ≠ 0 then
      .error (PyStr.ofString "source authority " ++ repr (redactSourceUrl sourceUrl) ++
        (PyStr.ofString " does not contain commit " ++ commit ++
          (stderrDetail sourceUrl stderr ++
            PyStr.ofString "; the commit was not fetched from the declared authority")))
    else .ok ()

/-- Two URLs end alike under the same outcome, whatever Git writes for each of them. -/
def Hidden (url₁ url₂ : PyStr) (o : GitOutcome) : Prop :=
  ∀ stderr₁ stderr₂, fetchFromAuthority repr commit timeout url₁ (o.run stderr₁) =
    fetchFromAuthority repr commit timeout url₂ (o.run stderr₂)

end Fetch

/-- The fetch succeeds. -/
def GitOutcome.Succeeds (o : GitOutcome) : Prop := o = .exited 0

/-- Git ran and failed. -/
def GitOutcome.Fails (o : GitOutcome) : Prop :=
  ∃ returncode, returncode ≠ 0 ∧ o = .exited returncode

section Compare

variable {repr : PyStr → PyStr} {commit timeout : PyStr} {url₁ url₂ : PyStr}

/-- A label between the same texts. -/
theorem label_eq_iff (hrepr : Function.Injective repr) {l₁ l₂ a b : PyStr} :
    (.error (a ++ repr l₁ ++ b) : Except PyStr Unit) = .error (a ++ repr l₂ ++ b) ↔ l₁ = l₂ := by
  rw [Except.error.injEq, List.append_cancel_right_eq, List.append_cancel_left_eq, hrepr.eq_iff]

/-- Of one URL, a failed fetch shows what Git wrote just when the URL has no userinfo. -/
theorem stderr_shown {returncode : ℤ} (hcode : returncode ≠ 0) :
    (∀ stderr, fetchFromAuthority repr commit timeout url₁ (.completed returncode stderr) =
      fetchFromAuthority repr commit timeout url₁ (.completed returncode [])) ↔
        hasUserinfo url₁ = true := by
  simp only [fetchFromAuthority, if_pos hcode, Except.error.injEq, List.append_cancel_left_eq,
    List.append_cancel_right_eq]
  constructor
  · intro h
    by_contra hnone
    have hx := h "x"
    simp only [stderrDetail, hnone] at hx
    revert hx
    decide
  · intro h stderr
    simp [stderrDetail, h]

/-- **Two URLs give the same errors** just when the fetch succeeds, or their labels agree and, where
Git ran, both are known to have a userinfo. -/
theorem hidden_iff (hrepr : Function.Injective repr) (o : GitOutcome) :
    Hidden repr commit timeout url₁ url₂ o ↔ o.Succeeds ∨
      redactSourceUrl url₁ = redactSourceUrl url₂ ∧
        (o.Fails → hasUserinfo url₁ = true ∧ hasUserinfo url₂ = true) := by
  cases o with
  | timedOut =>
    simp only [Hidden, GitOutcome.run, fetchFromAuthority, GitOutcome.Succeeds, GitOutcome.Fails]
    rw [label_eq_iff hrepr]
    simp
  | osError errno =>
    simp only [Hidden, GitOutcome.run, fetchFromAuthority, GitOutcome.Succeeds, GitOutcome.Fails]
    rw [label_eq_iff hrepr]
    simp
  | exited returncode =>
    by_cases hcode : returncode = 0
    · subst hcode
      exact iff_of_true (fun _ _ => rfl) (.inl rfl)
    · have hfails : (GitOutcome.exited returncode).Fails := ⟨returncode, hcode, rfl⟩
      have hnot : ¬ (GitOutcome.exited returncode).Succeeds := by
        intro h
        exact hcode (GitOutcome.exited.inj h)
      rw [or_iff_right hnot]
      constructor
      · intro h
        refine ⟨?_, fun _ => ⟨?_, ?_⟩⟩
        · have hempty := h [] []
          simp only [GitOutcome.run, fetchFromAuthority, if_pos hcode, stderrDetail, if_true,
            ite_self] at hempty
          exact (label_eq_iff hrepr).1 hempty
        · exact (stderr_shown hcode).1 fun stderr => (h stderr []).trans (h [] []).symm
        · exact (stderr_shown hcode).1 fun stderr => (h [] stderr).symm.trans (h [] [])
      · intro ⟨hlabel, huser⟩ stderr₁ stderr₂
        obtain ⟨h₁, h₂⟩ := huser hfails
        simp [GitOutcome.run, fetchFromAuthority, stderrDetail, h₁, h₂, hlabel]

end Compare

/-! ## Two forms of URLs -/

/-- `scheme://userinfo@host/path`. -/
def schemeUrl (scheme userinfo host path : PyStr) : PyStr :=
  scheme ++ schemeEnd ++ (userinfo ++ atSign :: (host ++ slash :: path))

/-- `userinfo@host:path`. -/
def scpUrl (userinfo host path : PyStr) : PyStr := userinfo ++ atSign :: (host ++ colon :: path)

/-- What a label keeps of a userinfo: the part behind its first `@`, with an `@` of its own. -/
def kept (userinfo : PyStr) : PyStr := ((after? atSign userinfo).map (· ++ [atSign])).getD []

theorem after?_userinfo (userinfo t : PyStr) :
    after? atSign (userinfo ++ atSign :: t) = some (kept userinfo ++ t) := by
  rw [after?_append, kept]
  cases after? atSign userinfo with
  | none => rfl
  | some r => simp

theorem mem_userinfo (userinfo t : PyStr) : atSign ∈ userinfo ++ atSign :: t := by simp

theorem find_schemeUrl {scheme : PyStr} (h : colon ∉ scheme) (t : PyStr) :
    find schemeEnd (scheme ++ schemeEnd ++ t) = some scheme.length := by
  rw [List.append_assoc, schemeEnd, find_skip_first h, find_prefix, Option.map_some, Nat.zero_add]

theorem drop_schemeUrl (scheme t : PyStr) :
    (scheme ++ schemeEnd ++ t).drop (scheme.length + 3) = t :=
  List.drop_left' (by rw [List.length_append]; rfl)

theorem take_schemeUrl (scheme t : PyStr) :
    (scheme ++ schemeEnd ++ t).take (scheme.length + 3) = scheme ++ schemeEnd :=
  List.take_left' (by rw [List.length_append]; rfl)

/-- **The label of a URL with a scheme.** -/
theorem redactSourceUrl_schemeUrl {scheme : PyStr} (h : colon ∉ scheme)
    (userinfo host path : PyStr) : redactSourceUrl (schemeUrl scheme userinfo host path) =
      scheme ++ schemeEnd ++ (kept userinfo ++ (host ++ slash :: path)) := by
  have hmem : ¬ atSign ∉ scheme ++ schemeEnd ++ (userinfo ++ atSign :: (host ++ slash :: path)) :=
    not_not.2 (List.mem_append_right _ (mem_userinfo _ _))
  rw [redactSourceUrl, schemeUrl, if_neg hmem, find_schemeUrl h]
  dsimp only
  rw [drop_schemeUrl, after?_userinfo, take_schemeUrl]

theorem hasUserinfo_schemeUrl {scheme : PyStr} (h : colon ∉ scheme) (userinfo host path : PyStr) :
    hasUserinfo (schemeUrl scheme userinfo host path) = true := by
  have hmem : ¬ atSign ∉ scheme ++ schemeEnd ++ (userinfo ++ atSign :: (host ++ slash :: path)) :=
    not_not.2 (List.mem_append_right _ (mem_userinfo _ _))
  rw [hasUserinfo, schemeUrl, if_neg hmem, find_schemeUrl h]
  dsimp only
  rw [drop_schemeUrl]
  exact decide_eq_true (mem_userinfo _ _)

/-- The colon that ends the host may start a scheme end, and nothing before it does. -/
theorem find_scpUrl {userinfo host : PyStr} (hu : slash ∉ userinfo) (hh : slash ∉ host)
    (path : PyStr) : find schemeEnd (scpUrl userinfo host path) =
      (find schemeEnd (colon :: path)).map (· + (userinfo ++ atSign :: host).length) := by
  have hslash : slash ∉ userinfo ++ atSign :: host := by
    rw [List.mem_append, List.mem_cons]
    intro h
    rcases h with h | h | h
    · exact hu h
    · revert h
      decide
    · exact hh h
  have hurl : scpUrl userinfo host path = (userinfo ++ atSign :: host) ++ colon :: path := by
    simp [scpUrl]
  have hhead : (colon :: path).head? ≠ some slash := by
    intro h
    exact absurd (Option.some.inj h) (by decide)
  rw [hurl, schemeEnd, find_skip_second hslash hhead]

theorem scpUrl_eq (userinfo host path : PyStr) :
    scpUrl userinfo host path = (userinfo ++ atSign :: host) ++ colon :: path := by
  rw [scpUrl, List.append_assoc, List.cons_append]

theorem drop_scpUrl (userinfo host path : PyStr) (j : ℕ) :
    (scpUrl userinfo host path).drop (j + (userinfo ++ atSign :: host).length + 3) =
      (colon :: path).drop (j + 3) := by
  have hindex : j + (userinfo ++ atSign :: host).length + 3 =
      (userinfo ++ atSign :: host).length + (j + 3) := by
    omega
  rw [scpUrl_eq, hindex, List.drop_length_add_append]

theorem take_scpUrl (userinfo host path : PyStr) (j : ℕ) :
    (scpUrl userinfo host path).take (j + (userinfo ++ atSign :: host).length + 3) =
      userinfo ++ atSign :: host ++ (colon :: path).take (j + 3) := by
  have hindex : j + (userinfo ++ atSign :: host).length + 3 =
      (userinfo ++ atSign :: host).length + (j + 3) := by
    omega
  rw [scpUrl_eq, hindex, List.take_length_add_append]

section Scp

variable {userinfo host path : PyStr} (hu : slash ∉ userinfo) (hh : slash ∉ host)

/-- What the label keeps of a path that holds a scheme end. -/
def keptPath (path : PyStr) (j : ℕ) : PyStr :=
  match after? atSign ((colon :: path).drop (j + 3)) with
  | some rest => (colon :: path).take (j + 3) ++ rest
  | none => colon :: path

include hu hh

/-- **The label of a URL without a scheme.** -/
theorem redactSourceUrl_scpUrl (hpath : find schemeEnd (colon :: path) = none) :
    redactSourceUrl (scpUrl userinfo host path) = kept userinfo ++ (host ++ colon :: path) := by
  have hmem : ¬ atSign ∉ scpUrl userinfo host path := not_not.2 (mem_userinfo _ _)
  rw [redactSourceUrl, if_neg hmem, find_scpUrl hu hh, hpath]
  dsimp only [Option.map_none]
  rw [scpUrl, after?_userinfo, Option.getD_some]

/-- A scheme end in the path makes the label show the whole userinfo. -/
theorem redactSourceUrl_scpUrl_schemeEnd {j : ℕ} (hpath : find schemeEnd (colon :: path) = some j) :
    redactSourceUrl (scpUrl userinfo host path) =
      userinfo ++ (atSign :: host ++ keptPath path j) := by
  have hmem : ¬ atSign ∉ scpUrl userinfo host path := not_not.2 (mem_userinfo _ _)
  rw [redactSourceUrl, if_neg hmem, find_scpUrl hu hh, hpath]
  dsimp only [Option.map_some]
  rw [drop_scpUrl, take_scpUrl, keptPath]
  cases after? atSign ((colon :: path).drop (j + 3)) with
  | none =>
    rw [scpUrl_eq]
    exact List.append_assoc _ _ _
  | some rest => simp only [List.append_assoc]

/-- A scheme end in the path makes the test look behind it. -/
theorem hasUserinfo_scpUrl_schemeEnd {j : ℕ} (hpath : find schemeEnd (colon :: path) = some j) :
    hasUserinfo (scpUrl userinfo host path) = true ↔ atSign ∈ (colon :: path).drop (j + 3) := by
  have hmem : ¬ atSign ∉ scpUrl userinfo host path := not_not.2 (mem_userinfo _ _)
  rw [hasUserinfo, if_neg hmem, find_scpUrl hu hh, hpath]
  dsimp only [Option.map_some]
  rw [drop_scpUrl, decide_eq_true_iff]

end Scp

/-- The userinfo has an `@` of its own before its first colon, if it has a colon. -/
def Marked (userinfo : PyStr) : Prop := colon ∈ userinfo → atSign ∈ userinfo.takeWhile (· ≠ colon)

/-- Otherwise the test looks before the first colon. -/
theorem hasUserinfo_scpUrl {userinfo host path : PyStr} (hu : slash ∉ userinfo) (hh : slash ∉ host)
    (hcolon : colon ∉ host) (hpath : find schemeEnd (colon :: path) = none) :
    hasUserinfo (scpUrl userinfo host path) = true ↔ Marked userinfo := by
  have hmem : ¬ atSign ∉ scpUrl userinfo host path := not_not.2 (mem_userinfo _ _)
  rw [hasUserinfo, if_neg hmem, find_scpUrl hu hh, hpath]
  dsimp only [Option.map_none]
  by_cases hsecret : colon ∈ userinfo
  · obtain ⟨p, r, rfl, hp⟩ := List.eq_append_cons_of_mem hsecret
    have hurl : scpUrl (p ++ colon :: r) host path =
        p ++ colon :: (r ++ atSign :: (host ++ colon :: path)) := by
      simp [scpUrl]
    have htake : (p ++ colon :: r).takeWhile (· ≠ colon) = p := by
      rw [List.takeWhile_append_of_pos, List.takeWhile_cons_of_neg (by simp), List.append_nil]
      intro c hc
      rw [decide_eq_true_iff]
      intro h
      exact hp (h ▸ hc)
    rw [hurl, find_singleton_append hp]
    dsimp only
    rw [List.take_left, decide_eq_true_iff, Marked, htake]
    exact ⟨fun h _ => h, fun h => h hsecret⟩
  · have hfree : colon ∉ userinfo ++ atSign :: host := by
      rw [List.mem_append, List.mem_cons]
      intro h
      rcases h with h | h | h
      · exact hsecret h
      · revert h
        decide
      · exact hcolon h
    rw [scpUrl_eq, find_singleton_append hfree]
    dsimp only
    rw [List.take_left, decide_eq_true_iff]
    exact iff_of_true (mem_userinfo _ _) fun h => absurd h hsecret

/-! ## What the errors tell -/

/-- **The errors tell two userinfos apart** unless the fetch succeeds, or: with a scheme, the labels
keep the same of both; without one, so they do and, where Git ran, each has its own `@` before its
first colon, if any; with a scheme end in the path, they are one userinfo, and an `@` follows that
scheme end where Git ran. -/
theorem credentials_hidden_iff (repr : PyStr → PyStr) (hrepr : Function.Injective repr)
    (commit timeout u₁ u₂ : PyStr) (hu₁ : slash ∉ u₁) (hu₂ : slash ∉ u₂) (o : GitOutcome) :
    (∀ scheme host path, colon ∉ scheme →
      (Hidden repr commit timeout (schemeUrl scheme u₁ host path)
          (schemeUrl scheme u₂ host path) o ↔
        o.Succeeds ∨ kept u₁ = kept u₂)) ∧
    (∀ host path, slash ∉ host → colon ∉ host → find schemeEnd (colon :: path) = none →
      (Hidden repr commit timeout (scpUrl u₁ host path) (scpUrl u₂ host path) o ↔
        o.Succeeds ∨ kept u₁ = kept u₂ ∧ (o.Fails → Marked u₁ ∧ Marked u₂))) ∧
    (∀ host path j, slash ∉ host → find schemeEnd (colon :: path) = some j →
      (Hidden repr commit timeout (scpUrl u₁ host path) (scpUrl u₂ host path) o ↔
        o.Succeeds ∨ u₁ = u₂ ∧ (o.Fails → atSign ∈ (colon :: path).drop (j + 3)))) := by
  refine ⟨?_, ?_, ?_⟩
  · intro scheme host path hscheme
    have huser : o.Fails → hasUserinfo (schemeUrl scheme u₁ host path) = true ∧
        hasUserinfo (schemeUrl scheme u₂ host path) = true :=
      fun _ => ⟨hasUserinfo_schemeUrl hscheme _ _ _, hasUserinfo_schemeUrl hscheme _ _ _⟩
    rw [hidden_iff hrepr, and_iff_left huser, redactSourceUrl_schemeUrl hscheme,
      redactSourceUrl_schemeUrl hscheme, List.append_cancel_left_eq, List.append_cancel_right_eq]
  · intro host path hslash hcolon hpath
    rw [hidden_iff hrepr, redactSourceUrl_scpUrl hu₁ hslash hpath,
      redactSourceUrl_scpUrl hu₂ hslash hpath, List.append_cancel_right_eq,
      hasUserinfo_scpUrl hu₁ hslash hcolon hpath, hasUserinfo_scpUrl hu₂ hslash hcolon hpath]
  · intro host path j hslash hpath
    rw [hidden_iff hrepr, redactSourceUrl_scpUrl_schemeEnd hu₁ hslash hpath,
      redactSourceUrl_scpUrl_schemeEnd hu₂ hslash hpath, List.append_cancel_right_eq,
      hasUserinfo_scpUrl_schemeEnd hu₁ hslash hpath, hasUserinfo_scpUrl_schemeEnd hu₂ hslash hpath,
      and_self_iff]

/-- `repr` of a printable string without quotes or backslashes. -/
def quoted (s : PyStr) : PyStr := "'" ++ s ++ "'"

/-- A secret without an `@` does not reach the errors of a URL with a scheme. -/
theorem credentials_hidden_iff_https :
    Hidden quoted "c0ffee" "60" (schemeUrl "https" "user:secret" "h" "r.git")
      (schemeUrl "https" "user:other" "h" "r.git") (.exited 128) := by
  have hquoted : Function.Injective quoted := by
    intro s t h
    exact List.append_cancel_left (List.append_cancel_right h)
  have hscheme := (credentials_hidden_iff quoted hquoted "c0ffee" "60" "user:secret" "user:other"
    (by decide) (by decide) (.exited 128)).1
  exact (hscheme "https" "h" "r.git" (by decide)).2 (.inr (by decide))

/-- The userinfo of `https://user:p@ss@h/r.git` is `user:p@ss`, and the label shows `ss@`. -/
theorem secret_behind_at_sign_shown :
    ¬ ∀ scheme host path u₁ u₂ : PyStr, colon ∉ scheme → slash ∉ u₁ → slash ∉ u₂ →
      ∀ o, Hidden quoted "c0ffee" "60" (schemeUrl scheme u₁ host path)
        (schemeUrl scheme u₂ host path) o := by
  intro h
  have hlabel := h "https" "h" "r.git" "user:p@ss" "user:p" (by decide) (by decide) (by decide)
    .timedOut [] []
  revert hlabel
  decide

end Lubko.Deploy
