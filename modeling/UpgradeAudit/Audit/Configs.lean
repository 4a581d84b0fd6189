/-
# Analyzer configurations

The contents of the configuration files that the analyzers are given: the additional
capability classifications, and the choice of linters.  They come with the program and can be
read whenever it runs, so they are constants here.
-/
import UpgradeAudit.Text.Utf8

namespace UpgradeAudit.Configs

/-- Lines as the contents of a file, with a line end after each. -/
def ofLines (lines : List String) : Bytes :=
  Text.Utf8.encode (String.join (lines.map (· ++ "\n")))

/-- The name of the capability map in the private directory of an analyzer. -/
def capabilityMapName : String := "dep-inspector.cm"

/-- Classifications of packages and functions beyond those the capability analyzer knows. -/
def capabilityMap : List String :=
  ["# Additional capability classifications used when inspecting dependencies.",
   "# Format: \"package <import path> <CAPABILITY>\" or \"func <qualified name> <CAPABILITY>\".",
   "",
   "package os/signal CAPABILITY_MODIFY_SYSTEM_STATE",
   "package runtime/debug CAPABILITY_RUNTIME",
   "package runtime/metrics CAPABILITY_READ_SYSTEM_STATE",
   "package runtime/pprof CAPABILITY_RUNTIME",
   "package runtime/trace CAPABILITY_RUNTIME",
   "",
   "func runtime.Breakpoint CAPABILITY_RUNTIME",
   "func runtime.GC CAPABILITY_RUNTIME",
   "func runtime.GOMAXPROCS CAPABILITY_RUNTIME",
   "func runtime.LockOSThread CAPABILITY_RUNTIME",
   "func runtime.UnlockOSThread CAPABILITY_RUNTIME",
   "func runtime.MemProfile CAPABILITY_READ_SYSTEM_STATE",
   "func runtime.MutexProfile CAPABILITY_READ_SYSTEM_STATE",
   "func runtime.ReadMemStats CAPABILITY_READ_SYSTEM_STATE",
   "func runtime.ReadTrace CAPABILITY_READ_SYSTEM_STATE",
   "func runtime.SetBlockProfileRate CAPABILITY_RUNTIME",
   "func runtime.SetCPUProfileRate CAPABILITY_RUNTIME",
   "func runtime.SetCgoTraceback CAPABILITY_RUNTIME",
   "func runtime.SetFinalizer CAPABILITY_RUNTIME",
   "func runtime.SetMutexProfileFraction CAPABILITY_RUNTIME",
   "func runtime.StartTrace CAPABILITY_RUNTIME",
   "func runtime.StopTrace CAPABILITY_RUNTIME",
   "func runtime.ThreadCreateProfile CAPABILITY_READ_SYSTEM_STATE"]

/-- The name of the linter configuration in the private directory of an analyzer. -/
def linterConfigName : String := ".golangci.yml"

/-- Which linters run, and with which settings. -/
def linterConfig : List String :=
  ["issues:",
   "  exclude-rules:",
   "    # Ignore gocritic checks that produce too many false positives or",
   "    # don't check for potential bugs a downstream application could",
   "    # observe. Ideally these would be disabled below but gocritic checks",
   "    # can't be both selectively enabled and disabled.",
   "    - linters:",
   "        - gocritic",
   "      text: \"appendAssign:\"",
   "    - linters:",
   "        - gocritic",
   "      text: \"deprecatedComment:\"",
   "    # For some reason typecheck can have many false positives, skip them",
   "    # as ultimately if typechecking errors do exist, they will be found",
   "    # during development",
   "    - linters:",
   "        - typecheck",
   "      text: \".*\"",
   "  max-same-issues: 0",
   "  max-issues-per-linter: 0",
   "",
   "linters:",
   "  disable-all: true",
   "  enable:",
   "    - asasalint",
   "    - bidichk",
   "    - durationcheck",
   "    - errcheck",
   "    - gocritic",
   "    - govet",
   "    - ineffassign",
   "    - nilerr",
   "    - nilnil",
   "    - reassign",
   "    - revive",
   "    - rowserrcheck",
   "    - sqlclosecheck",
   "",
   "linters-settings:",
   "  asasalint:",
   "    exclude:",
   "      - append",
   "  errcheck:",
   "    exclude-functions:",
   "      - io.Copy(ioutil.Discard)",
   "      - io.CopyN(ioutil.Discard)",
   "      - (go.uber.org/zap/zapcore.ObjectEncoder).AddObject",
   "  errorlint:",
   "    errorf: false",
   "  gocritic:",
   "    enabled-checks:",
   "      - truncateCmp",
   "      - sqlQuery",
   "    enabled-tags:",
   "      - diagnostic",
   "    disabled-tags:",
   "      - experimental",
   "      - opinionated",
   "      - performance",
   "      - style",
   "  govet:",
   "    disable:",
   "      - composites",
   "  reassign:",
   "    patterns:",
   "      - \".*\"",
   "  revive:",
   "    rules:",
   "      - name: blank-imports",
   "        disabled: true",
   "",
   "run:",
   "  tests: false",
   "  timeout: 10m"]

end UpgradeAudit.Configs
