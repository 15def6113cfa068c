/-
PackageOrder.Resolve.Builtin — the modules that the runtime provides.
-/
import PackageOrder.Text.Split

namespace PackageOrder

open PackageOrder.Text

/-- The names of the modules that the runtime provides. -/
def builtinModules : List String :=
  ["assert", "async_hooks", "buffer", "child_process", "cluster", "console", "constants", "crypto",
    "dgram", "diagnostics_channel", "dns", "domain", "events", "fs", "http", "http2", "https",
    "inspector", "module", "net", "os", "path", "perf_hooks", "process", "punycode",
    "querystring", "readline", "repl", "stream", "string_decoder", "sys", "timers", "tls",
    "trace_events", "tty", "url", "util", "v8", "vm", "wasi", "worker_threads", "zlib"]

/-- Whether a specifier names a module of the runtime or a part of one; behind
`node:` every name does. -/
def isBuiltinModule (specifier : String) : Bool :=
  match dropHead? "node:".toList specifier.toList with
  | some rest => !rest.isEmpty
  | none =>
    let root := (splitOn '/' specifier.toList).head?.getD []
    builtinModules.contains (.ofList root)

end PackageOrder
