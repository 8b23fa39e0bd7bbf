import Lubko.Deploy.Prepare
import Lubko.Lib.Greedy
import Mathlib.Data.List.Sort

/-!
# Evidence of superseded incarnations

`prune_old_incarnation_artifacts` of `health.py` keeps the artifacts of the current incarnation and,
within a count and a byte budget, those of earlier ones that are young enough. `_prune_dir` offers
them to the budgets from the newest on, so that the most recent ones are kept, and goes on behind
one that does not fit.

* `current_kept`, `pruneLoop_entries` — what is left of a directory.
* `retention_iff` — what is promised of it holds exactly when no older artifact fits what a newer
  one left of the budgets.
-/

namespace Lubko.Worker.Retention

open Lubko.Lib Lubko.Deploy

/-! ## Ages -/

/-- `-x`. -/
def negated : PyFloat → PyFloat
  | .finite q => .finite (-q)
  | .infinite negative => .infinite !negative
  | .nan => .nan

/-- `x < y`; no comparison with `nan` holds. -/
def less : PyFloat → PyFloat → Bool
  | .finite p, .finite q => p < q
  | .infinite a, .infinite b => a && !b
  | .infinite a, .finite _ => a
  | .finite _, .infinite b => !b
  | .nan, _ | _, .nan => false

/-- `_EvidenceWindow`. -/
structure EvidenceWindow where
  now : PyFloat
  retentionSeconds : PyFloat
  maxFiles : ℕ
  maxBytes : ℕ

/-- `MAX_RETAINED_EVIDENCE_FILES`. -/
def MAX_RETAINED_EVIDENCE_FILES : ℕ := 8

/-- `MAX_RETAINED_EVIDENCE_BYTES`. -/
def MAX_RETAINED_EVIDENCE_BYTES : ℕ := 16 * 1024 * 1024

/-- `EVIDENCE_RETENTION_SECONDS`. -/
def EVIDENCE_RETENTION_SECONDS : PyFloat := .finite (48 * 3600)

/-! ## Directories -/

/-- An entry of the directory: what `is_file` says, and `st_mtime_ns` and `st_size` unless `stat`
raises. -/
structure Artifact where
  name : PyStr
  isFile : Bool
  stat : Option (ℤ × ℕ)
  deriving DecidableEq

/-- A directory; its entries have different names. -/
structure Directory where
  entries : List Artifact
  distinct : (entries.map Artifact.name).Nodup

/-- `entry.unlink()`. -/
def Directory.unlink (dir : Directory) (name : PyStr) : Directory where
  entries := dir.entries.filter fun entry => entry.name ≠ name
  distinct := dir.distinct.sublist (List.filter_sublist.map Artifact.name)

/-- The path, the time and the size `_prune_dir` notes of a superseded file. -/
structure Seen where
  name : PyStr
  mtimeNs : ℤ
  size : ℕ
  deriving DecidableEq

/-- A file whose `stat` fails is noted as one of the epoch. -/
def Artifact.seen (entry : Artifact) : Seen :=
  match entry.stat with
  | none => ⟨entry.name, 0, 0⟩
  | some (mtimeNs, size) => ⟨entry.name, mtimeNs, size⟩

/-- `fnmatch`, for patterns whose only wildcard is the asterisk. -/
def globMatches : PyStr → PyStr → Bool
  | [], name => name.isEmpty
  | p :: pattern, name =>
    if p = CodePoint.ofChar '*' then name.tails.any (globMatches pattern)
    else
      match name with
      | [] => false
      | c :: rest => p = c && globMatches pattern rest

/-- The name of the current incarnation's artifact, or of a rotation backup of it. -/
def isCurrent (keepPrefix name : PyStr) : Bool :=
  name = keepPrefix || (keepPrefix ++ ".").isPrefixOf name

/-- The files `_prune_dir` collects. -/
def isSuperseded (keepPrefix pattern : PyStr) (entry : Artifact) : Bool :=
  globMatches pattern entry.name && entry.isFile && !isCurrent keepPrefix entry.name

/-- The order of `itemgetter(1)`, reversed. -/
def NoOlder (a b : Seen) : Prop := b.mtimeNs ≤ a.mtimeNs

instance : DecidableRel NoOlder := fun a b => inferInstanceAs (Decidable (b.mtimeNs ≤ a.mtimeNs))

instance : Std.Total NoOlder := ⟨fun a b => le_total b.mtimeNs a.mtimeNs⟩

instance : IsTrans Seen NoOlder := ⟨fun _ _ _ hab hbc => le_trans hbc hab⟩

/-- `superseded.sort(key=itemgetter(1), reverse=True)`; files of one time stay in order. -/
def newestFirst (seen : List Seen) : List Seen := seen.insertionSort NoOlder

/-- `recent`. -/
def recent (window : EvidenceWindow) (seen : Seen) : Bool :=
  less (window.now.add (negated (.rounded ((seen.mtimeNs : ℚ) / 1000000000))))
    window.retentionSeconds

/-- `retained_files` and `retained_bytes`. -/
abbrev Retained := ℕ × ℕ

/-- `within_budget`. -/
def withinBudget (window : EvidenceWindow) (retained : Retained) (seen : Seen) : Bool :=
  retained.1 < window.maxFiles && retained.2 + seen.size ≤ window.maxBytes

/-- The budgets with one more file retained. -/
def retain (retained : Retained) (seen : Seen) : Retained :=
  (retained.1 + 1, retained.2 + seen.size)

/-- The loop over the superseded files; `unlinks` says which unlinks succeed. -/
def pruneLoop (window : EvidenceWindow) (unlinks : PyStr → Bool) :
    Retained → List Seen → Directory → Directory
  | _, [], dir => dir
  | retained, seen :: rest, dir =>
    if recent window seen && withinBudget window retained seen then
      pruneLoop window unlinks (retain retained seen) rest dir
    else
      pruneLoop window unlinks retained rest
        (if unlinks seen.name then dir.unlink seen.name else dir)

/-- `_prune_dir`; `none` is a path that is no directory. -/
def pruneDir (unlinks : PyStr → Bool) (directory : Option Directory) (keepPrefix pattern : PyStr)
    (window : EvidenceWindow) : Option Directory :=
  directory.map fun dir =>
    let superseded := (dir.entries.filter (isSuperseded keepPrefix pattern)).map Artifact.seen
    pruneLoop window unlinks (0, 0) (newestFirst superseded) dir

/-- `prune_old_incarnation_artifacts` with its default bounds, on the directories of the health
files and of the logs. -/
def pruneOldIncarnationArtifacts (unlinks : PyStr → Bool) (token : PyStr) (now : PyFloat)
    (health logs : Option Directory) : Option Directory × Option Directory :=
  let window : EvidenceWindow :=
    ⟨now, EVIDENCE_RETENTION_SECONDS, MAX_RETAINED_EVIDENCE_FILES, MAX_RETAINED_EVIDENCE_BYTES⟩
  (pruneDir unlinks health ("health-" ++ token ++ ".json") "health-*.json" window,
    pruneDir unlinks logs ("worker-" ++ token ++ ".log") "worker-*.log*" window)

/-! ## What is left of a directory -/

/-- The superseded files of a directory, the newest first. -/
def offered (keepPrefix pattern : PyStr) (dir : Directory) : List Seen :=
  newestFirst ((dir.entries.filter (isSuperseded keepPrefix pattern)).map Artifact.seen)

/-- The superseded files the loop goes past. -/
def droppedFrom (window : EvidenceWindow) (retained : Retained) (seen : List Seen) : List Seen :=
  Greedy.dropped (fun retained s => recent window s && withinBudget window retained s) retain
    retained seen

/-- The superseded files the loop retains. -/
def retainedFrom (window : EvidenceWindow) (retained : Retained) (seen : List Seen) : List Seen :=
  Greedy.kept (fun retained s => recent window s && withinBudget window retained s) retain
    retained seen

@[simp] theorem seen_name (entry : Artifact) : entry.seen.name = entry.name := by
  unfold Artifact.seen
  split <;> rfl

/-- Whatever the unlinks do, the loop only takes away files it was given. -/
theorem pruneLoop_subset (window : EvidenceWindow) (unlinks : PyStr → Bool) (retained : Retained)
    (seen : List Seen) (dir : Directory) {entry : Artifact} (hentry : entry ∈ dir.entries)
    (hname : entry.name ∉ seen.map Seen.name) :
    entry ∈ (pruneLoop window unlinks retained seen dir).entries := by
  induction seen generalizing retained dir with
  | nil => exact hentry
  | cons s rest ih =>
    rw [List.map_cons, List.mem_cons, not_or] at hname
    rw [pruneLoop]
    split_ifs
    · exact ih _ dir hentry hname.2
    · refine ih _ _ ?_ hname.2
      exact List.mem_filter.2 ⟨hentry, by simpa using hname.1⟩
    · exact ih _ dir hentry hname.2

/-- What is not superseded stays, whatever the unlinks do. -/
theorem current_kept {unlinks : PyStr → Bool} {dir after : Directory} {keepPrefix pattern : PyStr}
    {window : EvidenceWindow}
    (h : pruneDir unlinks (some dir) keepPrefix pattern window = some after) {entry : Artifact} (hentry : entry ∈ dir.entries)
    (hcurrent : isSuperseded keepPrefix pattern entry = false) : entry ∈ after.entries := by
  obtain rfl := Option.some.inj h
  refine pruneLoop_subset window unlinks _ _ dir hentry fun hname => ?_
  obtain ⟨s, hs, hsname⟩ := List.mem_map.1 hname
  rw [newestFirst, List.mem_insertionSort] at hs
  obtain ⟨other, hother, rfl⟩ := List.mem_map.1 hs
  obtain ⟨hin, hsuperseded⟩ := List.mem_filter.1 hother
  -- the names of a directory are different
  have heq : other = entry :=
    List.inj_on_of_nodup_map dir.distinct hin hentry (by rw [← hsname, seen_name])
  rw [heq, hcurrent] at hsuperseded
  cases hsuperseded

theorem not_isSuperseded {keepPrefix pattern : PyStr} {entry : Artifact}
    (h : isCurrent keepPrefix entry.name = true) :
    isSuperseded keepPrefix pattern entry = false := by
  rw [isSuperseded, h, Bool.not_true, Bool.and_false]

/-- **The current incarnation's artifacts stay**, whatever the unlinks do. -/
theorem prune_keeps_current {unlinks : PyStr → Bool} {token : PyStr} {now : PyFloat}
    {health logs health' logs' : Directory}
    (h : pruneOldIncarnationArtifacts unlinks token now (some health) (some logs) =
      (some health', some logs')) :
    (∀ entry ∈ health.entries, isCurrent ("health-" ++ token ++ ".json") entry.name = true →
        entry ∈ health'.entries) ∧
      ∀ entry ∈ logs.entries, isCurrent ("worker-" ++ token ++ ".log") entry.name = true →
        entry ∈ logs'.entries := by
  obtain ⟨hhealth, hlogs⟩ := Prod.mk.inj h
  exact ⟨fun entry hentry hcurrent => current_kept hhealth hentry (not_isSuperseded hcurrent),
    fun entry hentry hcurrent => current_kept hlogs hentry (not_isSuperseded hcurrent)⟩

theorem droppedFrom_of_retained {window : EvidenceWindow} {retained : Retained} {s : Seen}
    (h : (recent window s && withinBudget window retained s) = true) (rest : List Seen) :
    droppedFrom window retained (s :: rest) = droppedFrom window (retain retained s) rest :=
  if_pos h

theorem droppedFrom_of_not_retained {window : EvidenceWindow} {retained : Retained} {s : Seen}
    (h : (recent window s && withinBudget window retained s) = false) (rest : List Seen) :
    droppedFrom window retained (s :: rest) = s :: droppedFrom window retained rest :=
  if_neg (Bool.eq_false_iff.1 h)

theorem retainedFrom_of_retained {window : EvidenceWindow} {retained : Retained} {s : Seen}
    (h : (recent window s && withinBudget window retained s) = true) (rest : List Seen) :
    retainedFrom window retained (s :: rest) =
      s :: retainedFrom window (retain retained s) rest :=
  if_pos h

theorem retainedFrom_of_not_retained {window : EvidenceWindow} {retained : Retained} {s : Seen}
    (h : (recent window s && withinBudget window retained s) = false) (rest : List Seen) :
    retainedFrom window retained (s :: rest) = retainedFrom window retained rest :=
  if_neg (Bool.eq_false_iff.1 h)

/-- Where the unlinks succeed, the dropped files are gone and the others are left. -/
theorem pruneLoop_entries {window : EvidenceWindow} {unlinks : PyStr → Bool}
    (hunlinks : ∀ name, unlinks name = true) (retained : Retained) (seen : List Seen)
    (dir : Directory) : (pruneLoop window unlinks retained seen dir).entries =
      dir.entries.filter fun entry =>
        entry.name ∉ (droppedFrom window retained seen).map Seen.name := by
  induction seen generalizing retained dir with
  | nil => simp [pruneLoop, droppedFrom, Greedy.dropped]
  | cons s rest ih =>
    cases h : recent window s && withinBudget window retained s with
    | true => rw [pruneLoop, if_pos h, ih, droppedFrom_of_retained h]
    | false =>
      rw [pruneLoop, if_neg (Bool.eq_false_iff.1 h), if_pos (hunlinks s.name), ih,
        droppedFrom_of_not_retained h, Directory.unlink, List.filter_filter]
      refine List.filter_congr fun entry _ => ?_
      rw [List.map_cons, ← Bool.decide_and, decide_eq_decide, List.mem_cons, not_or, and_comm]

section Retained

variable {keepPrefix pattern : PyStr} {window : EvidenceWindow} {dir : Directory}

theorem nodup_offered : ((offered keepPrefix pattern dir).map Seen.name).Nodup := by
  have hperm : (offered keepPrefix pattern dir).Perm
      ((dir.entries.filter (isSuperseded keepPrefix pattern)).map Artifact.seen) :=
    List.perm_insertionSort NoOlder _
  rw [(hperm.map Seen.name).nodup_iff, List.map_map]
  have hnames : Seen.name ∘ Artifact.seen = Artifact.name := funext seen_name
  rw [hnames]
  exact dir.distinct.sublist (List.filter_sublist.map Artifact.name)

theorem sorted_offered :
    (offered keepPrefix pattern dir).Pairwise fun a b => b.mtimeNs ≤ a.mtimeNs :=
  List.pairwise_insertionSort NoOlder _

theorem mem_offered {s : Seen} : s ∈ offered keepPrefix pattern dir ↔
    ∃ entry ∈ dir.entries, isSuperseded keepPrefix pattern entry = true ∧ entry.seen = s := by
  rw [offered, newestFirst, List.mem_insertionSort, List.mem_map]
  refine exists_congr fun entry => ?_
  rw [List.mem_filter, and_assoc]

theorem perm_offered (l : List Seen) :
    (retainedFrom window (0, 0) l ++ droppedFrom window (0, 0) l).Perm l :=
  Greedy.perm_kept_dropped

/-- **The superseded files left are those the loop retains.** -/
theorem perm_retained {after : Directory} (hafter : after.entries = dir.entries.filter fun entry =>
      entry.name ∉ (droppedFrom window (0, 0) (offered keepPrefix pattern dir)).map Seen.name) :
    ((after.entries.filter (isSuperseded keepPrefix pattern)).map Artifact.seen).Perm
      (retainedFrom window (0, 0) (offered keepPrefix pattern dir)) := by
  set l := offered keepPrefix pattern dir
  set names := (droppedFrom window (0, 0) l).map Seen.name
  have hbefore : l.Perm
      ((dir.entries.filter (isSuperseded keepPrefix pattern)).map Artifact.seen) :=
    List.perm_insertionSort NoOlder _
  have hleft : (after.entries.filter (isSuperseded keepPrefix pattern)).map Artifact.seen =
      ((dir.entries.filter (isSuperseded keepPrefix pattern)).map Artifact.seen).filter
        fun s => s.name ∉ names := by
    rw [hafter, List.filter_map, List.filter_filter, List.filter_filter]
    congr 1
    refine List.filter_congr fun entry _ => ?_
    rw [Function.comp_apply, seen_name, Bool.and_comm]
  have hparts : (retainedFrom window (0, 0) l ++ droppedFrom window (0, 0) l).Perm l :=
    perm_offered l
  have hnodup := (hparts.map Seen.name).nodup_iff.2 nodup_offered
  rw [List.map_append] at hnodup
  have hkept : (retainedFrom window (0, 0) l).filter (fun s => s.name ∉ names) =
      retainedFrom window (0, 0) l := by
    rw [List.filter_eq_self]
    intro s hs
    rw [decide_eq_true_eq]
    exact fun hin => (List.disjoint_of_nodup_append hnodup) (List.mem_map_of_mem hs) hin
  have hdropped : (droppedFrom window (0, 0) l).filter (fun s => s.name ∉ names) = [] := by
    rw [List.filter_eq_nil_iff]
    intro s hs
    rw [decide_eq_true_eq, not_not]
    exact List.mem_map_of_mem hs
  rw [hleft]
  refine (hbefore.filter _).symm.trans ((hparts.filter _).symm.trans ?_)
  rw [List.filter_append, hkept, hdropped, List.append_nil]

/-- The files retained respect both budgets. -/
theorem retained_bounds {retained : Retained} (hfiles : retained.1 ≤ window.maxFiles)
    (hbytes : retained.2 ≤ window.maxBytes) (l : List Seen) :
    retained.1 + (retainedFrom window retained l).length ≤ window.maxFiles ∧
      retained.2 + ((retainedFrom window retained l).map Seen.size).sum ≤ window.maxBytes := by
  induction l generalizing retained with
  | nil => exact ⟨hfiles, hbytes⟩
  | cons s l ih =>
    cases h : recent window s && withinBudget window retained s with
    | true =>
      obtain ⟨-, hroom⟩ := Bool.and_eq_true _ _ ▸ h
      rw [withinBudget, Bool.and_eq_true, decide_eq_true_eq, decide_eq_true_eq] at hroom
      have hrest : retained.1 + 1 + (retainedFrom window (retain retained s) l).length ≤
            window.maxFiles ∧ retained.2 + s.size +
              ((retainedFrom window (retain retained s) l).map Seen.size).sum ≤ window.maxBytes :=
        @ih (retain retained s) hroom.1 hroom.2
      rw [retainedFrom_of_retained h, List.map_cons, List.length_cons, List.sum_cons]
      omega
    | false =>
      rw [retainedFrom_of_not_retained h]
      exact ih hfiles hbytes

theorem le_retain (retained : Retained) (s : Seen) : retained ≤ retain retained s :=
  ⟨Nat.le_succ _, Nat.le_add_right _ _⟩

/-- A file that fits fits where less is retained. -/
theorem withinBudget_of_le (b b' : Retained) (s : Seen) (hle : b ≤ b')
    (h : withinBudget window b' s = true) : withinBudget window b s = true := by
  rw [withinBudget, Bool.and_eq_true, decide_eq_true_eq, decide_eq_true_eq] at h ⊢
  obtain ⟨hfiles, hbytes⟩ := hle
  omega

theorem recent_of_retained {retained : Retained} {l : List Seen} {s : Seen}
    (hs : s ∈ retainedFrom window retained l) : recent window s = true := by
  obtain ⟨before, after, -, htakes⟩ := Greedy.mem_kept_iff.1 hs
  rw [Bool.and_eq_true] at htakes
  exact htakes.1

end Retained

/-! ## The window -/

/-- What pruning promises of a directory. -/
structure Pruned (keepPrefix pattern : PyStr) (window : EvidenceWindow) (before after : Directory) :
    Prop where
  subset : ∀ entry ∈ after.entries, entry ∈ before.entries
  current : ∀ entry ∈ before.entries, isCurrent keepPrefix entry.name = true →
    entry ∈ after.entries
  young : ∀ entry ∈ after.entries, isSuperseded keepPrefix pattern entry = true →
    recent window entry.seen = true
  files : (after.entries.filter (isSuperseded keepPrefix pattern)).length ≤ window.maxFiles
  bytes : ((after.entries.filter (isSuperseded keepPrefix pattern)).map
    fun entry => entry.seen.size).sum ≤ window.maxBytes
  /-- No superseded file that was dropped although it is young is newer than one that was kept. -/
  newest : ∀ gone ∈ before.entries, isSuperseded keepPrefix pattern gone = true →
    gone ∉ after.entries → recent window gone.seen = true →
      ∀ left ∈ after.entries, isSuperseded keepPrefix pattern left = true →
        gone.seen.mtimeNs ≤ left.seen.mtimeNs

/-- An older file takes the room a newer one did not have: it fits what all the files at least as
new as the other leave of the budgets. -/
def Overtaken (keepPrefix pattern : PyStr) (window : EvidenceWindow) (dir : Directory) : Prop :=
  Greedy.Overtaken Seen.mtimeNs (recent window) (withinBudget window) retain (0, 0)
    (offered keepPrefix pattern dir)

section Window

variable {keepPrefix pattern : PyStr} {window : EvidenceWindow} {dir after : Directory}

theorem mem_left_iff (hafter : after.entries = dir.entries.filter fun entry =>
      entry.name ∉ (droppedFrom window (0, 0) (offered keepPrefix pattern dir)).map Seen.name)
    {s : Seen} : s ∈ retainedFrom window (0, 0) (offered keepPrefix pattern dir) ↔
      ∃ entry ∈ after.entries, isSuperseded keepPrefix pattern entry = true ∧ entry.seen = s := by
  rw [← (perm_retained hafter).mem_iff, List.mem_map]
  refine exists_congr fun entry => ?_
  rw [List.mem_filter, and_assoc]

theorem mem_gone_iff (hafter : after.entries = dir.entries.filter fun entry =>
      entry.name ∉ (droppedFrom window (0, 0) (offered keepPrefix pattern dir)).map Seen.name)
    {s : Seen} : s ∈ droppedFrom window (0, 0) (offered keepPrefix pattern dir) ↔
      ∃ entry ∈ dir.entries, isSuperseded keepPrefix pattern entry = true ∧ entry.seen = s ∧
        entry ∉ after.entries := by
  constructor
  · intro hs
    have hin := (perm_offered _).mem_iff.1 (List.mem_append_right _ hs)
    obtain ⟨entry, hentry, hsuperseded, rfl⟩ := mem_offered.1 hin
    refine ⟨entry, hentry, hsuperseded, rfl, fun hleft => ?_⟩
    rw [hafter, List.mem_filter, decide_eq_true_eq] at hleft
    exact hleft.2 (List.mem_map.2 ⟨_, hs, seen_name entry⟩)
  · rintro ⟨entry, hentry, -, rfl, hgone⟩
    have hname : entry.name ∈
        (droppedFrom window (0, 0) (offered keepPrefix pattern dir)).map Seen.name := by
      by_contra hnot
      rw [hafter, List.mem_filter, decide_eq_true_eq] at hgone
      exact hgone ⟨hentry, hnot⟩
    obtain ⟨s, hs, hsname⟩ := List.mem_map.1 hname
    have hin := (perm_offered _).mem_iff.1 (List.mem_append_right _ hs)
    obtain ⟨other, hother, -, rfl⟩ := mem_offered.1 hin
    rw [seen_name] at hsname
    obtain rfl := List.inj_on_of_nodup_map dir.distinct hother hentry hsname
    exact hs

end Window

/-- **Retention keeps the newest** exactly when no older file takes the room a newer one did not
have; the rest of what pruning promises always holds. -/
theorem retention_iff {unlinks : PyStr → Bool} (hunlinks : ∀ name, unlinks name = true)
    {keepPrefix pattern : PyStr} {window : EvidenceWindow} {dir after : Directory}
    (h : pruneDir unlinks (some dir) keepPrefix pattern window = some after) :
    Pruned keepPrefix pattern window dir after ↔ ¬ Overtaken keepPrefix pattern window dir := by
  have hafter : after.entries = dir.entries.filter fun entry =>
      entry.name ∉ (droppedFrom window (0, 0) (offered keepPrefix pattern dir)).map Seen.name := by
    obtain rfl := Option.some.inj h
    exact pruneLoop_entries hunlinks (0, 0) _ dir
  have hperm := perm_retained hafter
  have horder : Overtaken keepPrefix pattern window dir ↔
      ∃ d ∈ droppedFrom window (0, 0) (offered keepPrefix pattern dir), recent window d = true ∧
        ∃ k ∈ retainedFrom window (0, 0) (offered keepPrefix pattern dir), k.mtimeNs < d.mtimeNs :=
    (Greedy.overtaken_iff le_retain withinBudget_of_le sorted_offered (0, 0)).symm
  constructor
  · intro hpruned hovertaken
    obtain ⟨d, hd, hyoung, k, hk, hlt⟩ := horder.1 hovertaken
    obtain ⟨gone, hgone, hgoneold, rfl, hnot⟩ := (mem_gone_iff hafter).1 hd
    obtain ⟨left, hleft, hleftold, rfl⟩ := (mem_left_iff hafter).1 hk
    exact absurd hlt (not_lt.2
      (hpruned.newest gone hgone hgoneold hnot hyoung left hleft hleftold))
  · intro hnot
    obtain ⟨hfiles, hbytes⟩ := @retained_bounds window (0, 0) (Nat.zero_le _) (Nat.zero_le _)
      (offered keepPrefix pattern dir)
    rw [Nat.zero_add] at hfiles hbytes
    refine ⟨fun entry hentry => ?_, fun entry hentry hcurrent => ?_,
      fun entry hentry hsuperseded => ?_, ?_, ?_,
      fun gone hgone hgoneold hnotleft hyoung left hleft hleftold => ?_⟩
    · rw [hafter] at hentry
      exact List.mem_of_mem_filter hentry
    · exact current_kept h hentry (not_isSuperseded hcurrent)
    · exact recent_of_retained ((mem_left_iff hafter).2 ⟨entry, hentry, hsuperseded, rfl⟩)
    · rw [← hperm.length_eq, List.length_map] at hfiles
      exact hfiles
    · rw [← (hperm.map Seen.size).sum_eq, List.map_map] at hbytes
      exact hbytes
    · by_contra hlt
      refine hnot (horder.2 ⟨gone.seen, ?_, hyoung, left.seen, ?_, not_le.1 hlt⟩)
      · exact (mem_gone_iff hafter).2 ⟨gone, hgone, hgoneold, rfl, hnotleft⟩
      · exact (mem_left_iff hafter).2 ⟨left, hleft, hleftold, rfl⟩

/-- Two snapshots of superseded incarnations, the newer one larger than the byte budget. -/
def storm : Directory where
  entries := [⟨"health-a.json", true, some (1799999800000000000, 1)⟩,
    ⟨"health-b.json", true, some (1799999900000000000, 17 * 1024 * 1024)⟩]
  distinct := by decide

/-- The default bounds, at a moment shortly after both were written. -/
def stormWindow : EvidenceWindow :=
  ⟨.finite 1800000000, EVIDENCE_RETENTION_SECONDS, MAX_RETAINED_EVIDENCE_FILES,
    MAX_RETAINED_EVIDENCE_BYTES⟩

theorem retention_iff_storm : ∃ after,
    pruneDir (fun _ => true) (some storm) "health-c.json" "health-*.json" stormWindow = some after ∧
      (Pruned "health-c.json" "health-*.json" stormWindow storm after ↔
        ¬ Overtaken "health-c.json" "health-*.json" stormWindow storm) :=
  ⟨_, rfl, retention_iff (fun _ => rfl) rfl⟩

/-- The larger snapshot is dropped and the older one is kept. -/
theorem large_newest_dropped : ∃ after,
    pruneDir (fun _ => true) (some storm) "health-c.json" "health-*.json" stormWindow = some after ∧
      ¬ Pruned "health-c.json" "health-*.json" stormWindow storm after := by
  refine ⟨_, rfl, fun h => ?_⟩
  have hle := h.newest ⟨"health-b.json", true, some (1799999900000000000, 17 * 1024 * 1024)⟩
    (by decide +kernel) (by decide +kernel) (by decide +kernel) (by decide +kernel)
    ⟨"health-a.json", true, some (1799999800000000000, 1)⟩ (by decide +kernel) (by decide +kernel)
  revert hle
  decide

end Lubko.Worker.Retention
