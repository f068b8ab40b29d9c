/-
Conflicts between TLS options (`checkTLSOptions` of `src/connection_string.ts`). The check looks for the options under
their own names, but of these `tlsInsecure` alone is a name under which an option is set: the others are renamed when
they are set, or are not in the table. So options that exclude each other are rejected where one of the other checks of
the parser rejects them, and nowhere else.
-/
import MongoDriver.Options.Mechanisms

namespace MongoDriver.Options

/-! ## The first check that fails -/

section

variable {α β γ : Type}

end

/-! ## The other checks -/

section

variable {ω σ : Type} (env : Environment ω σ) (url : ConnectionString env.toLanguage) (sources : Sources ω)

section

variable (mongoClient : ClientArgument ω) (uri : String) (options : List (String × Value ω)) (m : MongoOptions ω)

end

section

variable {env url sources} {m : MongoOptions ω}

end

/-! ## The check finds nothing -/

section

variable {env} {m : MongoOptions ω}

section

variable {url : ConnectionString env.toLanguage} {sources : Sources ω} {mongoClient : ClientArgument ω} {uri : String}
  {options : List (String × Value ω)}

end

/-! ## The whole run -/

section

variable (env) (url : ConnectionString env.toLanguage) (mongoClient : ClientArgument ω) (uri : String)
  (options : List (String × Value ω)) (world : σ)

/-- The addresses of the connection string. -/
def readHosts : Except AnyError (List Sdam.HostAddress) :=
  if url.isSRV then .ok [] else url.hosts.mapM (Sdam.HostAddress.ofString env.toRuntime)

/-- The hosts and the sources are read, and `tls` and `ssl` are the same. -/
structure Reads (hosts : List Sdam.HostAddress) (sources : Sources ω) : Prop where
  hosts : readHosts env url = .ok hosts
  collected : collectSources env url options = .ok sources
  tls : checkTlsAndSsl env (sources.allOptions env) = .ok ()

end

section

variable {url : ConnectionString env.toLanguage} {options : List (String × Value ω)}

end

end

end

/-! ## A run -/

end MongoDriver.Options
