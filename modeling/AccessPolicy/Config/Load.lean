import AccessPolicy.Config.Format
import AccessPolicy.Config.Toml
import AccessPolicy.File

/-! Loading configurations from files, in either of their two formats. -/

namespace AccessPolicy.Config

/-- The configuration in the file at `path`: TOML if the path has the extension `toml`, and JSON
otherwise. -/
def load (files : Files) (path : String) : Except PolicyError Config := do
  let text ← (files path).read.mapError .file
  if extension? path = some "toml" then parseToml text else parseJson text

end AccessPolicy.Config
