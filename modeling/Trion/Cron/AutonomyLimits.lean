import Mathlib.Data.List.Infix
import Mathlib.Data.List.Perm.Subperm
import Trion.Cron.WellFormed

/-!
# The limits on autonomy

How many jobs there may be, how many of them in one conversation, and what a job of the agent
may look like.  The limits are judged when a job is created or updated, on the job as it will
be stored, so that no order of partial updates leads around them.
-/

namespace Trion.Cron

open Trion.Python OrderedDict OperationRun

variable (env : CronRuntime)

/-! ### Jobs of the agent -/

/-- `str(job.get("created_by", "user")).strip().lower()`. -/
def creatorOf (job : Job) : String := env.lower (strip (strField env job "created_by" "user"))

/-- The objective the keywords are searched in. -/
def objectiveOf (job : Job) : String := strip (strField env job "objective" "")

/-- A keyword that is searched as it is: it holds a space, a hyphen or a slash. -/
def isPhrase (keyword : String) : Bool :=
  keyword.toList.any fun c => c == ' ' || c == '-' || c == '/'

/-- A keyword that is searched as a word: it consists of letters. -/
def isLetters (keyword : String) : Bool := keyword ≠ "" && keyword.toList.all Char.isAlpha

/-- The text, in lower case, holds the phrase, or the word with no word character beside it. -/
def Mentions (text keyword : String) : Prop :=
  ∃ before after, (env.lower text).toList = before ++ keyword.toList ++ after ∧
    (isPhrase keyword = true ∨ (before.getLast?.any env.isWordChar = false ∧
      after.head?.any env.isWordChar = false))

/-- The text mentions an allowed hint that approves the risky keyword. -/
def ContextApproves (text keyword : String) : Prop :=
  ∃ hint ∈ (trionRiskyContextApproved.lookup keyword).getD [],
    hint ∈ trionObjectiveAllowedHints ∧ Mentions env text hint

/-- What the policy asks of a job of the agent, its interval apart.  Of the keywords that block a
job, those count that are a phrase or a word of letters. -/
structure TrionPolicy (policy : Policy) (job : Job) : Prop where
  hardBlock : ∀ keyword ∈ trionObjectiveHardBlockHints,
    (isPhrase keyword = true ∨ isLetters keyword = true) →
      ¬ Mentions env (objectiveOf env job) keyword
  allowed : ∃ hint ∈ trionObjectiveAllowedHints, Mentions env (objectiveOf env job) hint
  maxLoops : ∃ n, ((get? job "max_loops").getD (.int 10)).toInt env.toPyRuntime = .ok n ∧
    n ≤ policy.trionMaxLoops
  approved : policy.trionRequireApprovalForRisky = true →
    ((get? job "user_approved").getD (.bool false)).truthy = true ∨
      ∀ keyword ∈ trionObjectiveRiskyHints, Mentions env (objectiveOf env job) keyword →
        ContextApproves env (objectiveOf env job) keyword

/-- The fields `TrionPolicy` and the creator are read from. -/
def trionFields : List String := ["created_by", "objective", "max_loops", "user_approved"]

variable {env} {policy : Policy}

lemma creatorOf_congr {job job' : Job} (h : get? job' "created_by" = get? job "created_by") :
    creatorOf env job' = creatorOf env job := by
  unfold creatorOf strField
  rw [h]

lemma TrionPolicy.congr {job job' : Job}
    (hsame : ∀ key ∈ trionFields, get? job' key = get? job key) (h : TrionPolicy env policy job) :
    TrionPolicy env policy job' := by
  have hobjective : objectiveOf env job' = objectiveOf env job := by
    unfold objectiveOf strField
    rw [hsame "objective" (by decide)]
  constructor
  case hardBlock =>
    rw [hobjective]
    exact h.hardBlock
  case allowed =>
    rw [hobjective]
    exact h.allowed
  case maxLoops =>
    rw [hsame "max_loops" (by decide)]
    exact h.maxLoops
  case approved =>
    rw [hsame "user_approved" (by decide), hobjective]
    exact h.approved

/-! ### Keywords -/

/-- A word is found exactly where it stands with a boundary on both sides. -/
lemma wordSearch_iff {token : List Char} (htoken : token ≠ []) (prev : Option Char)
    (text : List Char) : wordSearch env token prev text = true ↔
      ∃ before after, text = before ++ token ++ after ∧
        isBoundary env (before.getLast?.or prev) token.head? = true ∧
        isBoundary env token.getLast? after.head? = true := by
  induction text generalizing prev with
  | nil =>
    constructor
    · intro h
      cases h
    · rintro ⟨before, after, htext, -⟩
      simp [htoken] at htext
  | cons c text ih =>
    rw [wordSearch, Bool.or_eq_true, Bool.and_eq_true, Bool.and_eq_true, List.isPrefixOf_iff_prefix,
      ih]
    constructor
    · rintro (⟨⟨⟨after, htext⟩, hbefore⟩, hafter⟩ | ⟨before, after, rfl, hbefore, hafter⟩)
      · refine ⟨[], after, htext.symm, ?_, ?_⟩
        · obtain ⟨d, token, rfl⟩ := List.exists_cons_of_ne_nil htoken
          obtain rfl : d = c := (List.cons.inj htext).1
          exact hbefore
        · rwa [← htext, List.drop_left] at hafter
      · refine ⟨c :: before, after, rfl, ?_, hafter⟩
        cases before with
        | nil => exact hbefore
        | cons d before =>
          rw [List.getLast?_cons_cons, List.getLast?_cons, Option.some_or] at *
          exact hbefore
    · rintro ⟨before, after, htext, hbefore, hafter⟩
      cases before with
      | nil =>
        left
        obtain ⟨d, token, rfl⟩ := List.exists_cons_of_ne_nil htoken
        have htext' : c :: text = (d :: token) ++ after := htext
        obtain rfl : c = d := (List.cons.inj htext').1
        refine ⟨⟨⟨after, htext'.symm⟩, hbefore⟩, ?_⟩
        rw [htext', List.drop_left]
        exact hafter
      | cons d before =>
        right
        obtain ⟨rfl, rfl⟩ := List.cons.inj htext
        refine ⟨before, after, rfl, ?_, hafter⟩
        cases before with
        | nil => exact hbefore
        | cons e before =>
          rw [List.getLast?_cons_cons, List.getLast?_cons, Option.some_or] at *
          exact hbefore

lemma containsStr_iff {text keyword : String} : containsStr text keyword = true ↔
    ∃ before after, text.toList = before ++ keyword.toList ++ after := by
  rw [containsStr, List.any_eq_true]
  simp only [List.mem_tails, List.isPrefixOf_iff_prefix]
  constructor
  · rintro ⟨tail, ⟨before, hbefore⟩, after, rfl⟩
    exact ⟨before, after, by rw [List.append_assoc, hbefore]⟩
  · rintro ⟨before, after, htext⟩
    exact ⟨keyword.toList ++ after, ⟨before, by rw [htext, List.append_assoc]⟩, after, rfl⟩

lemma mem_of_mem_collectKeywordHits {text keyword : String} {keywords : List String}
    (hkeywords : ∀ k ∈ keywords, env.lower (strip k) = k)
    (h : keyword ∈ collectKeywordHits env text keywords) : keyword ∈ keywords := by
  simp only [collectKeywordHits, List.mem_eraseDups, List.mem_map, List.mem_filter] at h
  obtain ⟨k, ⟨hk, -⟩, rfl⟩ := h
  rwa [hkeywords k hk]

/-- The keywords that are collected are those that the text mentions. -/
lemma mem_collectKeywordHits_iff {text keyword : String} {keywords : List String}
    (hkeywords : ∀ k ∈ keywords, env.lower (strip k) = k)
    (hkind : isPhrase keyword = true ∨ isLetters keyword = true) :
    keyword ∈ collectKeywordHits env text keywords ↔
      keyword ∈ keywords ∧ Mentions env text keyword := by
  have hne : keyword ≠ "" := by
    rintro rfl
    exact absurd hkind (by decide)
  have hphrase : (' ' ∈ keyword.toList ∨ '-' ∈ keyword.toList ∨ '/' ∈ keyword.toList) ↔
      isPhrase keyword = true := by
    simp only [isPhrase, List.any_eq_true, Bool.or_eq_true, beq_iff_eq]
    constructor
    · rintro (h | h | h)
      · exact ⟨' ', h, .inl (.inl rfl)⟩
      · exact ⟨'-', h, .inl (.inr rfl)⟩
      · exact ⟨'/', h, .inr rfl⟩
    · rintro ⟨c, hc, (rfl | rfl) | rfl⟩
      · exact .inl hc
      · exact .inr (.inl hc)
      · exact .inr (.inr hc)
  have hhits : keyword ∈ collectKeywordHits env text keywords ↔ keyword ∈ keywords ∧
      (if isPhrase keyword = true then containsStr (env.lower text) keyword
        else wordSearch env keyword.toList none (env.lower text).toList) = true := by
    simp only [collectKeywordHits, List.mem_eraseDups, List.mem_map, List.mem_filter]
    constructor
    · rintro ⟨k, ⟨hk, hfound⟩, hlower⟩
      obtain rfl : k = keyword := (hkeywords k hk).symm.trans hlower
      rw [hkeywords k hk, if_neg hne] at hfound
      simp only [hphrase] at hfound
      exact ⟨hk, hfound⟩
    · rintro ⟨hk, hfound⟩
      refine ⟨keyword, ⟨hk, ?_⟩, hkeywords keyword hk⟩
      rw [hkeywords keyword hk, if_neg hne]
      simp only [hphrase]
      exact hfound
  rw [hhits, and_congr_right_iff]
  intro _
  split
  · rename_i hphrase
    rw [containsStr_iff, Mentions]
    exact exists_congr fun before => exists_congr fun after => (and_iff_left (.inl hphrase)).symm
  · rename_i hword
    have hletters : ∀ c ∈ keyword.toList, env.isWordChar c = true := by
      intro c hc
      have hall : keyword ≠ "" ∧ ∀ c ∈ keyword.toList, c.isAlpha = true := by
        simpa [isLetters] using hkind.resolve_left hword
      exact env.isWordChar_alpha c (hall.2 c hc)
    have hlist : keyword.toList ≠ [] := by simpa using hne
    have hhead : keyword.toList.head?.any env.isWordChar = true := by
      rw [List.head?_eq_some_head hlist]
      exact hletters _ (List.head_mem hlist)
    have hlast : keyword.toList.getLast?.any env.isWordChar = true := by
      rw [List.getLast?_eq_some_getLast hlist]
      exact hletters _ (List.getLast_mem hlist)
    rw [wordSearch_iff hlist, Mentions]
    refine exists_congr fun before => exists_congr fun after => and_congr_right fun _ => ?_
    rw [Option.or_none, isBoundary, isBoundary, hhead, hlast]
    simp [hword]

/-- The keywords of the tables are searched as they are written. -/
lemma lower_strip_hints {keywords : List String}
    (h : keywords ⊆ trionObjectiveHardBlockHints ++ trionObjectiveAllowedHints ++
      trionObjectiveRiskyHints) : ∀ keyword ∈ keywords, env.lower (strip keyword) = keyword := by
  have hall : ∀ keyword ∈ trionObjectiveHardBlockHints ++ trionObjectiveAllowedHints ++
      trionObjectiveRiskyHints, strip keyword = keyword ∧ isLowerAscii keyword = true := by decide
  intro keyword hkeyword
  obtain ⟨hstrip, hlower⟩ := hall keyword (h hkeyword)
  rw [hstrip]
  exact lower_eq_self_of_ascii env.lower_ascii hlower

lemma mem_hardHits_iff {text keyword : String} (hkeyword : keyword ∈ trionObjectiveHardBlockHints)
    (hkind : isPhrase keyword = true ∨ isLetters keyword = true) :
    keyword ∈ collectKeywordHits env text trionObjectiveHardBlockHints ↔
      Mentions env text keyword := by
  rw [mem_collectKeywordHits_iff (lower_strip_hints (by simp)) hkind, and_iff_right hkeyword]

lemma mem_allowedHits_iff {text keyword : String} :
    keyword ∈ collectKeywordHits env text trionObjectiveAllowedHints ↔
      keyword ∈ trionObjectiveAllowedHints ∧ Mentions env text keyword := by
  have hkinds : ∀ k ∈ trionObjectiveAllowedHints, isPhrase k = true ∨ isLetters k = true := by
    decide
  constructor
  · intro h
    have hmem := mem_of_mem_collectKeywordHits (lower_strip_hints (by simp)) h
    exact (mem_collectKeywordHits_iff (lower_strip_hints (by simp)) (hkinds _ hmem)).mp h
  · intro h
    exact (mem_collectKeywordHits_iff (lower_strip_hints (by simp)) (hkinds _ h.1)).mpr h

lemma mem_riskyHits {text keyword : String} (hkeyword : keyword ∈ trionObjectiveRiskyHints)
    (h : Mentions env text keyword) :
    keyword ∈ collectKeywordHits env text trionObjectiveRiskyHints := by
  have hkinds : ∀ k ∈ trionObjectiveRiskyHints, isPhrase k = true ∨ isLetters k = true := by decide
  exact (mem_collectKeywordHits_iff (lower_strip_hints (by simp)) (hkinds _ hkeyword)).mpr
    ⟨hkeyword, h⟩

/-! ### The policy -/

/-- What passes the check for an approval. -/
lemma approved_of_check {objective errorCode message : String} {statusCode : ℤ} {details : PyDict}
    {approved : Bool}
    (h : (if policy.trionRequireApprovalForRisky = false then pure ()
      else if ((collectKeywordHits env objective trionObjectiveRiskyHints).filter fun keyword =>
          !((trionRiskyContextApproved.lookup keyword).getD []).any fun hint =>
            (collectKeywordHits env objective trionObjectiveAllowedHints).contains hint) ≠ [] ∧
          approved = false then
        violation errorCode message statusCode details
      else pure ()) = (.ok () : Except CronError Unit)) :
    policy.trionRequireApprovalForRisky = true → approved = true ∨
      ∀ keyword ∈ trionObjectiveRiskyHints, Mentions env objective keyword →
        ContextApproves env objective keyword := by
  intro hrequire
  rw [if_neg (by simp [hrequire])] at h
  split at h
  · simp [violation] at h
  · rename_i hcheck
    by_cases happroved : approved = true
    · exact .inl happroved
    · right
      intro keyword hkeyword hmentions
      by_contra hcontext
      refine hcheck ⟨List.ne_nil_of_mem (a := keyword) ?_, by simpa using happroved⟩
      refine List.mem_filter.mpr ⟨mem_riskyHits hkeyword hmentions, ?_⟩
      rw [Bool.not_eq_true', List.any_eq_false]
      intro hint hhint hallowed
      exact hcontext ⟨hint, hhint, mem_allowedHits_iff.mp (by simpa using hallowed)⟩

/-- What the searches of the policy come to. -/
lemma TrionPolicy.of_hits {job : Job}
    (hhard : collectKeywordHits env (objectiveOf env job) trionObjectiveHardBlockHints = [])
    (hallowed : collectKeywordHits env (objectiveOf env job) trionObjectiveAllowedHints ≠ [])
    (hmax : ∃ n, ((get? job "max_loops").getD (.int 10)).toInt env.toPyRuntime = .ok n ∧
      n ≤ policy.trionMaxLoops)
    (happroved : policy.trionRequireApprovalForRisky = true →
      ((get? job "user_approved").getD (.bool false)).truthy = true ∨
        ∀ keyword ∈ trionObjectiveRiskyHints, Mentions env (objectiveOf env job) keyword →
          ContextApproves env (objectiveOf env job) keyword) : TrionPolicy env policy job where
  hardBlock keyword hkeyword hkind hmentions := by
    have hmem := (mem_hardHits_iff hkeyword hkind).mpr hmentions
    rw [hhard] at hmem
    cases hmem
  allowed := by
    obtain ⟨hint, hhint⟩ := List.exists_mem_of_ne_nil _ hallowed
    exact ⟨hint, mem_allowedHits_iff.mp hhint⟩
  maxLoops := hmax
  approved := happroved

/-- What passes the policy for the agent's jobs: `normalized` holds whatever `existing` holds. -/
lemma TrionPolicy.of_enforced {normalized existing : Job} {interval : Option ℤ} {mode : String}
    (hkeeps : ∀ key, (get? existing key).isSome → (get? normalized key).isSome)
    (hsafe : policy.trionSafeMode = true) (hcreator : creatorOf env normalized = "trion")
    (h : enforceTrionPolicy env policy normalized existing interval mode = .ok ()) :
    TrionPolicy env policy normalized := by
  have hfield : ∀ key default, (get? normalized key).getD ((get? existing key).getD default) =
      (get? normalized key).getD default := by
    intro key default
    cases hnormalized : get? normalized key with
    | some value => rfl
    | none =>
      have hnone : get? existing key = none := by
        by_contra hsome
        have hkept := hkeeps key (Option.isSome_iff_ne_none.mpr hsome)
        simp [hnormalized] at hkept
      simp [hnone]
  unfold enforceTrionPolicy at h
  simp only [hfield] at h
  rw [if_neg (by
    rintro (hactor | hoff)
    · exact hactor hcreator
    · simp [hsafe] at hoff)] at h
  obtain ⟨-, h⟩ := ok_of_violation h
  obtain ⟨hhard, h⟩ := ok_of_violation h
  obtain ⟨hallow, h⟩ := ok_of_violation h
  obtain ⟨n, hn, h⟩ := ok_of_bind h
  obtain ⟨hloops, h⟩ := ok_of_violation h
  have hmax : ∃ n, ((get? normalized "max_loops").getD (.int 10)).toInt env.toPyRuntime = .ok n ∧
      n ≤ policy.trionMaxLoops := by
    refine ⟨n, ?_, Int.not_lt.mp hloops⟩
    cases hint : ((get? normalized "max_loops").getD (.int 10)).toInt env.toPyRuntime with
    | error error => simp [hint, Except.mapError] at hn
    | ok m => simpa [hint, Except.mapError] using hn
  split at h
  · obtain ⟨found, -, h⟩ := ok_of_bind h
    cases found with
    | none => exact .of_hits (not_not.mp hhard) hallow hmax (approved_of_check h)
    | some seconds =>
      obtain ⟨-, h⟩ := ok_of_violation h
      exact .of_hits (not_not.mp hhard) hallow hmax (approved_of_check h)
  · exact .of_hits (not_not.mp hhard) hallow hmax (approved_of_check h)

/-- A normalised job that passes the policy. -/
lemma TrionPolicy.of_job_enforced {payload : PyDict} {jobs : List (String × Job)} {now : DateTime}
    {existing : Option Job} {normalized : Job} {jobId : String}
    (hnormalized : Normalizes env payload existing now normalized)
    (hsafe : policy.trionSafeMode = true) (hcreator : creatorOf env normalized = "trion")
    (h : enforceJobPolicy env policy jobs normalized existing jobId = .ok ()) :
    TrionPolicy env policy normalized := by
  unfold enforceJobPolicy at h
  obtain ⟨⟨⟩, -, h⟩ := ok_of_bind h
  obtain ⟨⟨⟩, -, h⟩ := ok_of_bind h
  obtain ⟨interval, -, h⟩ := ok_of_bind h
  exact .of_enforced hnormalized.keeps hsafe hcreator h

/-! ### Numbers of jobs -/

variable (env policy) in
/-- The jobs of a conversation. -/
def jobsOf (jobs : List (String × Job)) (conversation : String) : List (String × Job) :=
  jobs.filter fun e => strip (strField env e.2 "conversation_id" "") == conversation

variable (env policy) in
/-- There are no more jobs than the policy admits. -/
structure WithinLimits (s : CronJobStore) : Prop where
  jobs : (s.jobs.length : ℤ) ≤ policy.maxJobs
  conversation : ∀ conversation,
    ((jobsOf env s.jobs conversation).length : ℤ) ≤ policy.maxJobsPerConversation

variable (env policy) in
/-- The agent's jobs are such as the policy asks. -/
def TrionJobs (s : CronJobStore) : Prop :=
  ∀ jobId job, get? s.jobs jobId = some job → creatorOf env job = "trion" →
    TrionPolicy env policy job

/-- Every job has an identifier, and no two have the same. -/
structure NamedJobs (s : CronJobStore) : Prop where
  distinct : (keys s.jobs).Nodup
  named : "" ∉ keys s.jobs

/-- Every job was there before, in the same conversation. -/
def KeepsConversations (env : CronRuntime) (s s' : CronJobStore) : Prop :=
  ∀ jobId job', get? s'.jobs jobId = some job' → ∃ job, get? s.jobs jobId = some job ∧
    strField env job' "conversation_id" "" = strField env job "conversation_id" ""

lemma WithinLimits.of_keeps {s s' : CronJobStore} (h : WithinLimits env policy s)
    (hnodup : (keys s'.jobs).Nodup) (hkeeps : KeepsConversations env s s') :
    WithinLimits env policy s' := by
  have hget : ∀ e ∈ s'.jobs, get? s'.jobs e.1 = some e.2 := fun e he => get?_of_mem hnodup he
  constructor
  case jobs =>
    have hsub : keys s'.jobs ⊆ keys s.jobs := by
      intro jobId hjobId
      obtain ⟨job', hjob'⟩ := Option.isSome_iff_exists.mp (mem_keys_iff.mp hjobId)
      obtain ⟨job, hjob, -⟩ := hkeeps jobId job' hjob'
      exact mem_keys_iff.mpr (by simp [hjob])
    have hle := (List.subperm_of_subset hnodup hsub).length_le
    simp only [keys, List.length_map] at hle
    have hjobs := h.jobs
    omega
  case conversation =>
    intro conversation
    have hsub : (jobsOf env s'.jobs conversation).map Prod.fst ⊆
        (jobsOf env s.jobs conversation).map Prod.fst := by
      intro jobId hjobId
      obtain ⟨e, he, rfl⟩ := List.mem_map.mp hjobId
      obtain ⟨hmem, hconv⟩ := List.mem_filter.mp he
      obtain ⟨job, hjob, hsame⟩ := hkeeps e.1 e.2 (hget e hmem)
      refine List.mem_map.mpr ⟨(e.1, job), List.mem_filter.mpr ⟨mem_of_get? hjob, ?_⟩, rfl⟩
      rw [hsame] at hconv
      exact hconv
    have hids : ((jobsOf env s'.jobs conversation).map Prod.fst).Nodup :=
      hnodup.sublist (List.filter_sublist.map Prod.fst)
    have hle := (List.subperm_of_subset hids hsub).length_le
    simp only [List.length_map] at hle
    have hconversation := h.conversation conversation
    omega

/-- Writing a job counts it in its conversation, beside the other jobs. -/
lemma length_jobsOf_insert {jobs : List (String × Job)} (hnodup : (keys jobs).Nodup)
    (jobId : String) (job : Job) (conversation : String) :
    (jobsOf env (insert jobs jobId job) conversation).length =
      (if strip (strField env job "conversation_id" "") = conversation then 1 else 0) +
        (jobsOf env (erase jobs jobId) conversation).length := by
  have hperm := ((insert_perm jobId job hnodup).filter fun e =>
    strip (strField env e.2 "conversation_id" "") == conversation).length_eq
  rw [List.filter_cons] at hperm
  unfold jobsOf
  rw [hperm]
  split
  · rename_i h
    rw [if_pos (by simpa using h), List.length_cons, Nat.add_comm]
  · rename_i h
    rw [if_neg (by simpa using h), Nat.zero_add]

/-- `count_jobs_for_conversation` counts the jobs beside the excluded one. -/
lemma countJobsForConversation_eq (jobs : List (String × Job)) (conversation jobId : String) :
    countJobsForConversation env jobs conversation jobId =
      (jobsOf env (erase jobs (strip jobId)) (strip conversation)).length := by
  unfold countJobsForConversation jobsOf erase
  rw [List.filter_filter]
  refine congrArg List.length (List.filter_congr fun e _ => ?_)
  rw [Bool.and_comm, bne]

lemma length_jobsOf_erase_le (env : CronRuntime) (jobs : List (String × Job)) (jobId conversation : String) :
    (jobsOf env (erase jobs jobId) conversation).length ≤ (jobsOf env jobs conversation).length :=
  (List.filter_sublist.filter _).length_le

/-- A job that has passed the policy is written: the limits hold. -/
lemma WithinLimits.insert {s : CronJobStore} {existing : Option Job} {jobId excluded : String}
    {normalized job : Job} (h : WithinLimits env policy s) (hnodup : (keys s.jobs).Nodup)
    (hexcluded : ∀ conversation, (jobsOf env (erase s.jobs jobId) conversation).length ≤
      (jobsOf env (erase s.jobs (strip excluded)) conversation).length)
    (hexisting : ∀ current, existing = some current → get? s.jobs jobId = some current)
    (hsame : strField env job "conversation_id" "" = strField env normalized "conversation_id" "")
    (henforce : enforceJobPolicy env policy s.jobs normalized existing excluded = .ok ()) :
    WithinLimits env policy { s with jobs := OrderedDict.insert s.jobs jobId job } := by
  unfold enforceJobPolicy at henforce
  obtain ⟨⟨⟩, hcount, henforce⟩ := ok_of_bind henforce
  obtain ⟨⟨⟩, hconv, -⟩ := ok_of_bind henforce
  constructor
  case jobs =>
    have hlength := (insert_perm jobId job hnodup).length_eq
    rw [List.length_cons] at hlength
    have hle : (erase s.jobs jobId).length ≤ s.jobs.length := List.length_filter_le ..
    have hjobs := h.jobs
    dsimp only
    cases hex : existing with
    | none =>
      unfold checkJobCount at hcount
      dsimp only at hcount
      split at hcount
      · simp [violation] at hcount
      · rename_i hroom
        have hlt : (s.jobs.length : ℤ) < policy.maxJobs := by
          by_contra hge
          exact hroom ⟨by simp [hex], by omega⟩
        omega
    | some current =>
      have hold := (perm_cons_erase hnodup (hexisting current hex)).length_eq
      rw [List.length_cons] at hold
      omega
  case conversation =>
    intro conversation
    have hconversation := h.conversation conversation
    have herase := length_jobsOf_erase_le env s.jobs jobId conversation
    dsimp only
    rw [length_jobsOf_insert hnodup, hsame]
    split
    · rename_i hnew
      unfold checkConversation at hconv
      dsimp only at hconv
      rw [countJobsForConversation_eq, strip_strip, hnew] at hconv
      have hothers := hexcluded conversation
      split at hconv
      · simp [violation] at hconv
      · rename_i hroom
        by_cases hmoved : existing.isNone ∨
            conversation ≠ strip (strField env (existing.getD []) "conversation_id" "")
        · have hlt : ¬ ((jobsOf env (erase s.jobs (strip excluded)) conversation).length : ℤ) ≥
              policy.maxJobsPerConversation := fun hge => hroom ⟨hmoved, hge⟩
          omega
        · obtain ⟨hsome, hstays⟩ := not_or.mp hmoved
          obtain ⟨current, hex⟩ := Option.ne_none_iff_exists'.mp
            (by simpa using hsome : existing ≠ none)
          rw [hex] at hstays
          have hold := ((perm_cons_erase hnodup (hexisting current hex)).filter fun e =>
            strip (strField env e.2 "conversation_id" "") == conversation).length_eq
          rw [List.filter_cons, if_pos (by simpa using (not_not.mp hstays).symm),
            List.length_cons] at hold
          unfold jobsOf at hconversation ⊢
          omega
    · omega

/-! ### One operation -/

/-- A new job gets an identifier; `uuid4().hex[:12]` is never empty. -/
def NamesNewJob (_ : CronJobStore) (op : DateTime × CronOp) : Prop :=
  ∀ jobId payload, op.2 = .create jobId payload → jobId ≠ ""

lemma NamedJobs.ne_empty {s : CronJobStore} (h : NamedJobs s) {jobId : String} {job : Job}
    (hjob : get? s.jobs jobId = some job) : jobId ≠ "" := by
  rintro rfl
  exact h.named (mem_keys_iff.mpr (by simp [hjob]))

/-- One operation keeps the jobs named. -/
lemma namedJobs_step {s : CronJobStore} {op : DateTime × CronOp} (h : NamedJobs s)
    (hop : NamesNewJob s op) : NamedJobs (scheduler env policy s op).1 := by
  refine ⟨nodup_keys_step env policy h.distinct op, fun hmem => ?_⟩
  obtain ⟨job, hjob⟩ := Option.isSome_iff_exists.mp (mem_keys_iff.mp hmem)
  cases jobSource hjob with
  | same _ hjob₀ => exact h.ne_empty hjob₀ rfl
  | kept job₀ _ _ hjob₀ _ => exact h.ne_empty hjob₀ rfl
  | created payload normalized hcreate => exact hop "" payload hcreate rfl
  | updated cronJobId payload current normalized _ _ hcurrent => exact h.ne_empty hcurrent rfl

lemma keepsConversations_step {s : CronJobStore} {op : DateTime × CronOp}
    (hop : op.2.takesFields = false) :
    KeepsConversations env s (scheduler env policy s op).1 := by
  intro jobId job' hjob'
  cases jobSource hjob' with
  | same _ hjob => exact ⟨job', hjob, rfl⟩
  | kept job _ _ hjob hwrite => exact ⟨job, hjob, hwrite.strField_eq (by decide) _⟩
  | created payload normalized hcreate => simp [hcreate, CronOp.takesFields] at hop
  | updated cronJobId payload current normalized hupdate =>
    simp [hupdate, CronOp.takesFields] at hop

/-- One operation leaves no more jobs than the policy admits. -/
lemma withinLimits_step {s : CronJobStore} {op : DateTime × CronOp} (hnamed : NamedJobs s)
    (h : WithinLimits env policy s) (hop : NamesNewJob s op) :
    WithinLimits env policy (scheduler env policy s op).1 := by
  cases hfields : op.2.takesFields with
  | false =>
    exact h.of_keeps (namedJobs_step hnamed hop).distinct (keepsConversations_step hfields)
  | true =>
    generalize hresult : (scheduler env policy s op).1 = s'
    cases hresult ▸ written_of_takesFields env policy s hfields with
    | unchanged => exact h
    | created jobId payload normalized hcreate _ henforce =>
      refine h.insert hnamed.distinct ?_ ?_ ?_ henforce
      · intro conversation
        have hnone : erase s.jobs (strip "") = s.jobs := by
          refine List.filter_eq_self.mpr fun e he => ?_
          have hne : e.1 ≠ "" := fun heq => hnamed.named (heq ▸ List.mem_map.mpr ⟨e, he, rfl⟩)
          simpa [show strip "" = "" by decide] using hne
        rw [hnone]
        exact length_jobsOf_erase_le ..
      · rintro _ ⟨⟩
      · unfold strField
        rw [get?_newJob jobId normalized op.1 (by decide)]
    | updated cronJobId payload current normalized _ hcurrent _ hnormalized henforce =>
      refine h.insert hnamed.distinct ?_ ?_ ?_ henforce
      · intro conversation
        rw [strip_strip]
      · rintro _ ⟨⟩
        exact hcurrent
      · have hn := normalizes_of_ok hnormalized
        unfold strField
        rw [updated_get? hn (by decide)]

/-- One operation leaves the agent's jobs such as the policy asks. -/
lemma trionJobs_step {s : CronJobStore} {op : DateTime × CronOp}
    (hsafe : policy.trionSafeMode = true) (h : TrionJobs env policy s) :
    TrionJobs env policy (scheduler env policy s op).1 := by
  intro jobId job hjob hcreator
  cases jobSource hjob with
  | same _ hjob₀ => exact h jobId job hjob₀ hcreator
  | kept job₀ _ _ hjob₀ hwrite =>
    have hsame : ∀ key ∈ trionFields, get? job key = get? job₀ key := by
      have hdisjoint : ∀ key ∈ trionFields, key ∉ runtimeFields := by decide
      exact fun key hkey => hwrite key (hdisjoint key hkey)
    have hcreator₀ : creatorOf env job₀ = "trion" :=
      (creatorOf_congr (hsame "created_by" (by decide))).symm.trans hcreator
    exact (h jobId job₀ hjob₀ hcreator₀).congr hsame
  | created payload normalized _ hnormalized henforce =>
    have hsame : ∀ key ∈ trionFields,
        get? (newJob jobId normalized op.1) key = get? normalized key := by
      have hdisjoint : ∀ key ∈ trionFields, key ∉ "id" :: "created_at" :: runtimeFields := by decide
      exact fun key hkey => get?_newJob jobId normalized op.1 (hdisjoint key hkey)
    rw [creatorOf_congr (hsame "created_by" (by decide))] at hcreator
    exact (TrionPolicy.of_job_enforced (normalizes_of_ok hnormalized) hsafe hcreator
      henforce).congr hsame
  | updated cronJobId payload current normalized _ _ _ _ hnormalized henforce =>
    have hn := normalizes_of_ok hnormalized
    have hsame : ∀ key ∈ trionFields,
        get? (merge current (insert normalized "updated_at" (.str (iso op.1)))) key =
          get? normalized key := by
      have hdisjoint : ∀ key ∈ trionFields, key ≠ "updated_at" := by decide
      exact fun key hkey => updated_get? hn (hdisjoint key hkey)
    rw [creatorOf_congr (hsame "created_by" (by decide))] at hcreator
    exact (TrionPolicy.of_job_enforced hn hsafe hcreator henforce).congr hsame

/-! ### Runs -/

/-- In every run from an empty store, whatever is created, updated, deleted and run in whichever
order, there are no more jobs, and no more in one conversation, than the policy admits, and
under the safe mode every job of the agent is such as the policy asks. -/
theorem autonomy_limits (env : CronRuntime) (arguments : Policy) (ops : List (DateTime × CronOp))
    (hall : (scheduler env arguments.configured).Always NamesNewJob {} ops) :
    WithinLimits env arguments.configured ((scheduler env arguments.configured).after {} ops) ∧
      (arguments.trionSafeMode = true →
        TrionJobs env arguments.configured
          ((scheduler env arguments.configured).after {} ops)) := by
  constructor
  · have hrun : NamedJobs ((scheduler env arguments.configured).after {} ops) ∧
        WithinLimits env arguments.configured
          ((scheduler env arguments.configured).after {} ops) := by
      refine System.invariant (I := fun s => NamedJobs s ∧
        WithinLimits env arguments.configured s) ?_ hall ?_
      · intro s op hs hop
        exact ⟨namedJobs_step hs.1 hop, withinLimits_step hs.1 hs.2 hop⟩
      · refine ⟨⟨List.nodup_nil, List.not_mem_nil⟩, ?_, fun conversation => ?_⟩
        · exact (by omega : (0 : ℤ) ≤ max 1 arguments.maxJobs)
        · exact (by omega : (0 : ℤ) ≤ max 1 arguments.maxJobsPerConversation)
    exact hrun.2
  · intro hsafe
    exact System.invariant (fun s op hs _ => trionJobs_step hsafe hs) hall
      fun _ _ hjob => nomatch hjob

/-- The fields of a new job of the agent. -/
def agentPayload (objective : String) : PyDict :=
  [("name", .str "nightly"), ("objective", .str objective), ("conversation_id", .str "c"),
    ("schedule_mode", .str "one_shot"), ("run_at", .str "2030-01-01T00:00:00+00:00"),
    ("created_by", .str "trion"), ("job_note_md", .str "")]

/-- A job of the agent is created and then approved. -/
def agentRun (objective : String) : List (DateTime × CronOp) :=
  [(noon, .create "job" (agentPayload objective)),
    (noon, .update "job" [("user_approved", .bool true)])]

theorem autonomy_limits_agentRun :
    WithinLimits .ascii Policy.default.configured
        ((scheduler .ascii Policy.default.configured).after {} (agentRun "plan")) ∧
      TrionJobs .ascii Policy.default.configured
        ((scheduler .ascii Policy.default.configured).after {} (agentRun "plan")) := by
  have hall : (scheduler .ascii Policy.default.configured).Always NamesNewJob {}
      (agentRun "plan") := by
    refine ⟨?_, ?_, trivial⟩
    · rintro _ _ ⟨⟩
      decide
    · rintro _ _ ⟨⟩
  obtain ⟨hlimits, htrion⟩ := autonomy_limits .ascii .default _ hall
  exact ⟨hlimits, htrion rfl⟩

/-- A scheduler that is made without the safe mode. -/
def unsafePolicy : Policy := { Policy.default with trionSafeMode := false }

/-- Without the safe mode the agent may be given a forbidden objective. -/
theorem autonomy_limits_unsafe :
    ¬ (WithinLimits .ascii unsafePolicy.configured
        ((scheduler .ascii unsafePolicy.configured).after {} (agentRun "rm -rf")) ∧
      TrionJobs .ascii unsafePolicy.configured
        ((scheduler .ascii unsafePolicy.configured).after {} (agentRun "rm -rf"))) := by
  rintro ⟨-, htrion⟩
  have hrun : (get? ((scheduler .ascii unsafePolicy.configured).after {}
      (agentRun "rm -rf")).jobs "job").map (fun job => (creatorOf .ascii job,
        collectKeywordHits .ascii (objectiveOf .ascii job) trionObjectiveHardBlockHints)) =
      some ("trion", ["rm -rf"]) := by
    decide +kernel
  obtain ⟨job, hjob, hpair⟩ := Option.map_eq_some_iff.mp hrun
  obtain ⟨hcreator, hhits⟩ := Prod.mk.inj hpair
  have hfree := (htrion "job" job hjob hcreator).hardBlock "rm -rf" (by decide) (by decide)
  refine hfree ((mem_hardHits_iff (by decide) (by decide)).mp ?_)
  rw [hhits]
  exact List.mem_cons_self

end Trion.Cron
