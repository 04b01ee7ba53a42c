import BuildOTron.Lib.Schema

/-! The tables as `create_tables` declares them, and what the statements of `dbctx.rs`
name of them. In `run_preferences="all"` the quoted word is no column, so SQLite takes
it for a string. -/
namespace BuildOTron
open Sql

def createArtifactsTable : TableDecl :=
  ⟨"artifacts", ["id", "run_id", "name", "desc", "created_time", "completed_time"], [["id"]]⟩

def createJobsTable : TableDecl :=
  ⟨"jobs", ["id", "source", "created_time", "remote_id", "commit_id", "run_preferences"], [["id"]]⟩

def createMetricsTable : TableDecl :=
  ⟨"metrics", ["id", "job_id", "name", "value"], [["id"], ["job_id", "name"]]⟩

def createCommitsTable : TableDecl := ⟨"commits", ["id", "sha"], [["id"], ["sha"]]⟩

def createCommitNamesTable : TableDecl :=
  ⟨"commit_names", ["id", "commit_id", "name", "name_state"], [["id"]]⟩

/-- With the index `repo_names`. -/
def createReposTable : TableDecl :=
  ⟨"repos", ["id", "repo_name", "default_run_preference"], [["id"], ["repo_name"]]⟩

def createRemotesTable : TableDecl :=
  ⟨"remotes", ["id", "repo_id", "remote_path", "remote_api", "remote_url", "remote_git_url",
    "notifier_config_path"], [["id"]]⟩

def createRunsTable : TableDecl :=
  ⟨"runs", ["id", "job_id", "artifacts_path", "state", "host_id", "build_token", "created_time",
    "started_time", "complete_time", "run_timeout", "build_result", "final_status"], [["id"]]⟩

def createHostsTable : TableDecl :=
  ⟨"hosts", ["id", "hostname", "cpu_vendor_id", "cpu_model_name", "cpu_family", "cpu_model",
    "cpu_microcode", "cpu_max_freq_khz", "cpu_cores", "mem_total", "arch", "family", "os"],
    [["id"], ["hostname", "cpu_vendor_id", "cpu_model_name", "cpu_family", "cpu_model",
      "cpu_microcode", "cpu_cores", "mem_total", "arch", "family", "os"]]⟩

def createTables : Schema :=
  [createArtifactsTable, createJobsTable, createMetricsTable, createCommitsTable,
   createCommitNamesTable, createReposTable, createRemotesTable, createRunsTable, createHostsTable]

/-- The tables that the statements were written for: runs have a host preference, and
metrics belong to a run. -/
def migratedTables : Schema :=
  [createArtifactsTable, createJobsTable,
   ⟨"metrics", ["id", "run_id", "name", "value"], [["id"], ["run_id", "name"]]⟩,
   createCommitsTable, createCommitNamesTable, createReposTable, createRemotesTable,
   { createRunsTable with columns := createRunsTable.columns ++ ["host_preference"] },
   createHostsTable]

namespace Statements

def insertMetric : Statement :=
  .insert "metrics" ["run_id", "name", "value"] (some ["run_id", "name"])

def newCommit : Statement := .insert "commits" ["sha"] none

def newRepo : Statement := .insert "repos" ["repo_name"] none

def newRemote : Statement :=
  .insert "remotes" ["repo_id", "remote_path", "remote_api", "remote_url", "remote_git_url",
    "notifier_config_path"] none

def newJob : Statement :=
  .insert "jobs" ["remote_id", "commit_id", "created_time", "source", "run_preferences"] none

def newRun : Statement := .insert "runs" ["job_id", "state", "created_time", "host_preference"] none

def pendingRuns : Statement :=
  .query [("runs", ["id", "job_id", "created_time", "host_preference", "state"])]

def jobsNeedingHostRun : Statement :=
  .query [("jobs", ["id", "source", "created_time", "remote_id", "commit_id", "run_preferences"]),
    ("runs", ["job_id", "host_id"])]

/-- The columns that `row2run` reads. -/
def runColumns : List String :=
  ["id", "job_id", "artifacts_path", "state", "host_id", "build_token", "created_time",
   "started_time", "complete_time", "run_timeout", "build_result", "final_status"]

def activeRuns : Statement := .query [("runs", runColumns)]

def metricsForRun : Statement := .query [("metrics", ["run_id", "id"])]

def lastRunForJob : Statement := .query [("runs", runColumns)]

def runsForJob : Statement := .query [("runs", runColumns)]

def hostColumns : List String :=
  ["hostname", "cpu_vendor_id", "cpu_model_name", "cpu_family", "cpu_model", "cpu_microcode",
   "cpu_max_freq_khz", "cpu_cores", "mem_total", "arch", "family", "os"]

/-- `insert or ignore`. -/
def insertHost : Statement := .insert "hosts" hostColumns none

def selectHost : Statement := .query [("hosts", "id" :: hostColumns)]

/-- The update of `activate_run`. -/
def startRun : Statement :=
  .query [("runs", ["started_time", "host_id", "state", "artifacts_path", "build_token", "id"])]

end Statements
end BuildOTron
