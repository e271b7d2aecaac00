/-
Melon.Naming.ConsulNamingServiceTheorems — what `GetServers` answers and
what `RunNamingService` hands to `ResetServers`, over every run.

* `getServers_of_array` — a call that reaches consul and gets a new
  index with an array of entries returns the first occurrence of each
  valid node, stores the new index, and returns `-1` exactly when every
  entry of a non-empty array was invalid.
* `backup_file_read_once` — over a whole run, the backup file is read at
  most once, only with `consul_enable_degrade_to_file_naming_service`
  set, and it is `consul_file_naming_service_dir + service_name`.
* `resets_nodup_or_backup` — every list handed to `ResetServers` holds no
  node twice, or is the backup file's list.

## How the proof goes

`collect_eq` ties the entries loop to `List.eraseDups`
(`Melon.Naming.ListNamingServiceTheorems`). What a call can do to the
backup file (`BackupStep`) and to `servers` (`ServersOk`) is said once
for `DegradeToOtherServiceIfNeeded` and for an answer, and so for
`GetServers`; the run invariant `RunInv` is kept by a round
(`RunInv.runRound`) and so by a run (`foldlM_inv`, from
`Melon.Naming.ListNamingServiceTheorems`).
-/
import Melon.Naming.ConsulNamingService
import Melon.Naming.ListNamingServiceTheorems

namespace Melon.Naming

open Melon.Builtin (cStr)
open ConsulNamingService

variable (env : ConsulEnv) (name : List Char)

/-! ## 1. The entries loop -/

theorem collect_eq_foldl (services : List JsonValue) :
    collect env services = (services.mapM (serviceNode env)).map fun os => (os.filterMap id).foldl keepNew ([], []) := by
  suffices h : ∀ init, services.foldlM (fun ps v => (serviceNode env v).map fun o => o.elim ps (keepNew ps)) init =
      (services.mapM (serviceNode env)).map fun os => (os.filterMap id).foldl keepNew init from h _
  induction services with
  | nil => intro; rfl
  | cons v vs ih =>
    intro init
    rw [List.foldlM_cons, List.mapM_cons]
    cases serviceNode env v with
    | none => rfl
    | some o =>
      show List.foldlM _ (o.elim init (keepNew init)) vs = _
      rw [ih]
      cases List.mapM (serviceNode env) vs <;> cases o <;> rfl

/-- The loop returns the first occurrence of each node the entries give,
once every entry has a defined result. -/
theorem collect_eq (services : List JsonValue) :
    (collect env services).map Prod.snd = (services.mapM (serviceNode env)).map fun os => (os.filterMap id).eraseDups := by
  simp only [collect_eq_foldl, Option.map_map, Function.comp_def, foldl_keepNew_nil]

theorem collect_nodup {services : List JsonValue} {ps : List ServerNode × List ServerNode}
    (h : collect env services = some ps) : ps.2.Nodup := by
  rw [collect_eq_foldl, Option.map_eq_some'] at h
  obtain ⟨os, -, rfl⟩ := h
  rw [foldl_keepNew_nil]
  exact nodup_eraseDups _

/-! ## 2. One call of `GetServers` -/

/-- What a call does to the backup file: reads none and leaves
`_backup_file_loaded`, or reads `dir + service_name`, with the flag set
and `_backup_file_loaded` clear, and sets it. -/
def BackupStep (s : ConsulNamingService) (c : ConsulCall) : Prop :=
  (c.backupFile = none ∧ c.service.backupFileLoaded = s.backupFileLoaded) ∨
    (env.flags.enableDegradeToFileNamingService = true ∧ s.backupFileLoaded = false ∧
      c.backupFile = some (env.flags.fileNamingServiceDir ++ name) ∧ c.service.backupFileLoaded = true)

/-- What a call can put in `servers`: no node twice, or the backup file's
list. -/
def ServersOk (c : ConsulCall) : Prop :=
  c.servers.Nodup ∨ c.servers = (env.fileGetServers (env.flags.fileNamingServiceDir ++ name)).2

variable {env name} {s : ConsulNamingService}

@[simp] theorem connect_backupFileLoaded : (s.connect env name).backupFileLoaded = s.backupFileLoaded := rfl

@[simp] theorem connect_consulIndex : (s.connect env name).consulIndex = s.consulIndex := rfl

theorem degrade_backupStep (uri : Option (List Char)) :
    BackupStep env name s (s.degradeToOtherServiceIfNeeded env name uri) := by
  unfold degradeToOtherServiceIfNeeded BackupStep
  split
  · next h => simp only [Bool.and_eq_true, Bool.not_eq_true'] at h; exact .inr ⟨h.1, h.2, rfl, rfl⟩
  · exact .inl ⟨rfl, rfl⟩

theorem degrade_serversOk (uri : Option (List Char)) : ServersOk env name (s.degradeToOtherServiceIfNeeded env name uri) := by
  unfold degradeToOtherServiceIfNeeded ServersOk
  split
  · exact .inr rfl
  · exact .inl List.nodup_nil

theorem answer_spec {index body : List Char} {c : ConsulCall} (h : s.answer env name index body = some c) :
    c.backupFile = none ∧ c.service.backupFileLoaded = s.backupFileLoaded ∧ c.servers.Nodup := by
  unfold answer at h
  split at h
  · cases h; exact ⟨rfl, rfl, List.nodup_nil⟩
  split at h
  · obtain ⟨ps, hps, rfl⟩ := Option.map_eq_some'.1 h
    split <;> exact ⟨rfl, rfl, collect_nodup env hps⟩
  · cases h; exact ⟨rfl, rfl, List.nodup_nil⟩

theorem getServers_backupStep {r : ConsulReply} {c : ConsulCall} (h : s.getServers env name r = some c) :
    BackupStep env name s c := by
  unfold getServers at h
  split at h
  · cases h; exact degrade_backupStep none
  split at h
  · cases h; exact degrade_backupStep (s := s.connect env name) _
  · cases h; exact .inl ⟨rfl, rfl⟩
  · obtain ⟨h1, h2, -⟩ := answer_spec h; exact .inl ⟨h1, h2⟩

theorem getServers_serversOk {r : ConsulReply} {c : ConsulCall} (h : s.getServers env name r = some c) :
    ServersOk env name c := by
  unfold getServers at h
  split at h
  · cases h; exact degrade_serversOk none
  split at h
  · cases h; exact degrade_serversOk _
  · cases h; exact .inl List.nodup_nil
  · exact .inl (answer_spec h).2.2

theorem getServers_of_array {r : ConsulReply} {index body : List Char} {services : List JsonValue}
    {os : List (Option ServerNode)} (hc : s.consulConnected = true ∨ r.channelInit = true)
    (hr : r.response = some (some index, body)) (hi : index ≠ s.consulIndex)
    (hp : env.parse (cStr body) = .array services) (ho : services.mapM (serviceNode env) = some os) :
    s.getServers env name r = some
      { rc := if os.filterMap id = [] ∧ 0 < services.length then -1 else 0
        servers := (os.filterMap id).eraseDups
        service := { s.connect env name with consulIndex := index }
        uri := some (queryUri env (s.connect env name))
        backupFile := none } := by
  have hc' : (!s.consulConnected && !r.channelInit) = false := by
    rcases hc with hc | hc <;> simp [hc]
  have hcol : collect env services = some ((os.filterMap id).foldl keepNew ([], [])) := by
    rw [collect_eq_foldl, ho]; rfl
  simp only [getServers, hc', hr, answer, connect_consulIndex, hi, hp, hcol, Option.map_some', foldl_keepNew_nil,
    Bool.false_eq_true, if_false]
  have hcond : ((os.filterMap id).eraseDups.isEmpty && !services.isEmpty) = true ↔
      (os.filterMap id = [] ∧ 0 < services.length) := by
    simp [eraseDups_eq_nil, List.length_pos]
  by_cases hq : os.filterMap id = [] ∧ 0 < services.length
  · rw [if_pos (hcond.2 hq), if_pos hq]
  · rw [if_neg (mt hcond.1 hq), if_neg hq]

/-! ## 3. Whole runs of `RunNamingService` -/

theorem runRound_cases {st st' : ConsulRun} {rd : ConsulRound} (h : runRound env name st rd = some st') :
    st' = st ∨ ∃ c, st.service.getServers env name rd.reply = some c ∧ st' = afterGetServers st rd c := by
  unfold runRound at h
  split at h
  · cases h; exact .inl rfl
  · obtain ⟨c, hc, rfl⟩ := Option.map_eq_some'.1 h
    exact .inr ⟨c, hc, rfl⟩

@[simp] theorem afterSleep_resets (st : ConsulRun) (r : SleepResult) : (afterSleep st r).resets = st.resets := by
  cases r <;> rfl

@[simp] theorem afterSleep_everReset (st : ConsulRun) (r : SleepResult) : (afterSleep st r).everReset = st.everReset := by
  cases r <;> rfl

@[simp] theorem afterSleep_backupFiles (st : ConsulRun) (r : SleepResult) :
    (afterSleep st r).backupFiles = st.backupFiles := by
  cases r <;> rfl

@[simp] theorem afterSleep_service (st : ConsulRun) (r : SleepResult) : (afterSleep st r).service = st.service := by
  cases r <;> rfl

theorem ensureReset_resets (st : ConsulRun) :
    (ensureReset st).resets = st.resets ∨ (ensureReset st).resets = st.resets ++ [[]] := by
  unfold ensureReset
  split
  · exact .inl rfl
  · exact .inr rfl

/-- The lists handed to `ResetServers` in one round: none, the servers of a
`GetServers` that returned 0, or the empty list of the first failure. -/
theorem afterGetServers_resets (st : ConsulRun) (rd : ConsulRound) (c : ConsulCall) :
    (afterGetServers st rd c).resets = st.resets ∨
      (afterGetServers st rd c).resets = st.resets ++ [c.servers] ∨
      (afterGetServers st rd c).resets = st.resets ++ [[]] := by
  unfold afterGetServers
  dsimp only
  split
  · exact .inl rfl
  split
  · exact .inr (.inl rfl)
  · rw [afterSleep_resets]
    rcases ensureReset_resets { st with service := c.service, backupFiles := st.backupFiles ++ c.backupFile.toList }
      with h | h
    · exact .inl h
    · exact .inr (.inr h)

/-- The invariant of a run: `ever_reset` records whether `ResetServers`
was called, the backup file was read at most once, and each list handed
to `ResetServers` is duplicate-free or the backup file's. -/
structure RunInv (env : ConsulEnv) (name : List Char) (st : ConsulRun) : Prop where
  everReset : st.everReset = true ↔ st.resets ≠ []
  backup : st.backupFiles = [] ∨ (env.flags.enableDegradeToFileNamingService = true ∧
    st.backupFiles = [env.flags.fileNamingServiceDir ++ name] ∧ st.service.backupFileLoaded = true)
  servers : ∀ l ∈ st.resets, l.Nodup ∨ l = (env.fileGetServers (env.flags.fileNamingServiceDir ++ name)).2

theorem runInv_init : RunInv env name ConsulRun.init :=
  ⟨by simp [ConsulRun.init], .inl rfl, by simp [ConsulRun.init]⟩

theorem RunInv.reset {st : ConsulRun} (h : RunInv env name st) {l : List ServerNode}
    (hl : l.Nodup ∨ l = (env.fileGetServers (env.flags.fileNamingServiceDir ++ name)).2) :
    RunInv env name { st with everReset := true, resets := st.resets ++ [l] } :=
  ⟨by simp, h.backup, fun l' hl' => by
    rcases List.mem_append.1 hl' with hl' | hl'
    · exact h.servers l' hl'
    · rw [List.mem_singleton.1 hl']; exact hl⟩

theorem RunInv.call {st : ConsulRun} (h : RunInv env name st) {c : ConsulCall} (hb : BackupStep env name st.service c) :
    RunInv env name { st with service := c.service, backupFiles := st.backupFiles ++ c.backupFile.toList } := by
  refine ⟨h.everReset, ?_, h.servers⟩
  rcases hb with ⟨hf, hl⟩ | ⟨he, hl, hf, hl'⟩
  · simpa [hf, hl] using h.backup
  · rcases h.backup with h0 | ⟨-, -, h1⟩
    · simp [h0, hf, he, hl']
    · simp [h1] at hl

theorem RunInv.ensureReset {st : ConsulRun} (h : RunInv env name st) : RunInv env name (ensureReset st) := by
  unfold Melon.Naming.ensureReset
  split
  · exact h
  · exact h.reset (.inl List.nodup_nil)

theorem RunInv.afterSleep {st : ConsulRun} (h : RunInv env name st) (r : SleepResult) :
    RunInv env name (afterSleep st r) := by
  cases r <;> exact ⟨h.1, h.2, h.3⟩

theorem RunInv.afterGetServers {st : ConsulRun} {rd : ConsulRound} {c : ConsulCall} (h : RunInv env name st)
    (hb : BackupStep env name st.service c) (hs : ServersOk env name c) :
    RunInv env name (afterGetServers st rd c) := by
  have h1 := h.call hb
  unfold Melon.Naming.afterGetServers
  dsimp only
  split
  · exact ⟨h1.1, h1.2, h1.3⟩
  split
  · exact h1.reset hs
  · exact h1.ensureReset.afterSleep _

theorem RunInv.runRound {st st' : ConsulRun} {rd : ConsulRound} (h : RunInv env name st)
    (hr : runRound env name st rd = some st') : RunInv env name st' := by
  obtain rfl | ⟨c, hc, rfl⟩ := runRound_cases hr
  · exact h
  · exact h.afterGetServers (getServers_backupStep hc) (getServers_serversOk hc)

theorem runInv_run {rounds : List ConsulRound} {st : ConsulRun} (h : runNamingService env name rounds = some st) :
    RunInv env name st :=
  foldlM_inv (fun _ _ _ _ hb hr => hb.runRound hr) runInv_init h

/-- Over any run, `FileNamingService::GetServers` is called at most once,
only with `consul_enable_degrade_to_file_naming_service` set, and on
`consul_file_naming_service_dir + service_name`. -/
theorem backup_file_read_once {rounds : List ConsulRound} {st : ConsulRun}
    (h : runNamingService env name rounds = some st) :
    st.backupFiles = [] ∨
      (env.flags.enableDegradeToFileNamingService = true ∧ st.backupFiles = [env.flags.fileNamingServiceDir ++ name]) :=
  (runInv_run h).backup.imp_right fun h => ⟨h.1, h.2.1⟩

/-- Over any run, each list handed to `ResetServers` holds no node twice,
or is the list of the backup file. -/
theorem resets_nodup_or_backup {rounds : List ConsulRound} {st : ConsulRun}
    (h : runNamingService env name rounds = some st) :
    ∀ l ∈ st.resets, l.Nodup ∨ l = (env.fileGetServers (env.flags.fileNamingServiceDir ++ name)).2 :=
  (runInv_run h).servers

/-! ## 4. Runs on fixed inputs -/

/-- One healthy instance on port 8080, tagged `blue`. -/
def upService : JsonValue :=
  .object [("Service".toList, .object [("Address".toList, .string "10.0.0.1".toList), ("Port".toList, .int 8080),
    ("Tags".toList, .array [.string "blue".toList])])]

/-- A consul that lists `upService` twice, and an address parser that
takes every address as `0.0.0.0`. -/
def upEnv : ConsulEnv := ⟨{}, fun _ => .array [upService, upService], fun _ port => some ⟨0, port⟩, fun _ => (-1, [])⟩

/-- A reply with `X-Consul-Index: 7`. -/
def upReply : ConsulReply := ⟨true, some (some "7".toList, [])⟩

theorem getServers_of_array_up :
    upReply.response = some (some "7".toList, []) ∧ "7".toList ≠ ConsulNamingService.init.consulIndex ∧
      [upService, upService].mapM (serviceNode upEnv) =
        some [some ⟨⟨0, 8080⟩, "blue".toList⟩, some ⟨⟨0, 8080⟩, "blue".toList⟩] ∧
      ConsulNamingService.init.getServers upEnv "web".toList upReply = some
        { rc := 0
          servers := [⟨⟨0, 8080⟩, "blue".toList⟩]
          service := ⟨true, "/v1/health/service/web?stale&passing".toList, "7".toList, false⟩
          uri := some "/v1/health/service/web?stale&passing".toList
          backupFile := none } :=
  ⟨rfl, by decide, rfl,
    @getServers_of_array upEnv "web".toList ConsulNamingService.init upReply "7".toList [] [upService, upService]
      [some ⟨⟨0, 8080⟩, "blue".toList⟩, some ⟨⟨0, 8080⟩, "blue".toList⟩] (.inr rfl) rfl (by decide) rfl rfl⟩

/-- A consul agent that cannot be reached, with the degrade flag set and a
backup file that lists no server. -/
def downEnv : ConsulEnv :=
  ⟨{ enableDegradeToFileNamingService := true }, fun _ => .null, fun _ _ => none, fun _ => (0, [])⟩

/-- A round whose channel cannot be set up. -/
def downRound : ConsulRound := ⟨⟨false, none⟩, false, .slept⟩

theorem backup_file_read_once_down :
    runNamingService downEnv [] [downRound, downRound] = some ⟨⟨false, [], [], true⟩, true, [[]], [[]], none⟩ ∧
      (([[]] : List (List Char)) = [] ∨ (downEnv.flags.enableDegradeToFileNamingService = true ∧
        ([[]] : List (List Char)) = [downEnv.flags.fileNamingServiceDir ++ []])) :=
  ⟨rfl, @backup_file_read_once downEnv [] [downRound, downRound] _ rfl⟩

theorem resets_nodup_or_backup_down :
    runNamingService downEnv [] [downRound, downRound] = some ⟨⟨false, [], [], true⟩, true, [[]], [[]], none⟩ ∧
      ∀ l ∈ [([] : List ServerNode)], l.Nodup ∨ l = (downEnv.fileGetServers (downEnv.flags.fileNamingServiceDir ++ [])).2 :=
  ⟨rfl, @resets_nodup_or_backup downEnv [] [downRound, downRound] _ rfl⟩

end Melon.Naming
