import Runbook.Settings.Merge

/-! Where catalogs are found: one of the user, and the nearest one above a directory. -/
namespace Runbook

/-- The name of the user's catalog. -/
def userCatalogName : Text := "nixon.md"

/-- The name of the catalogs of directories. -/
def localCatalogName : Text := ".nixon.md"

/-- The path of the user's catalog. -/
def userCatalogPath (s : Surroundings) : Except Failure Path :=
  match s.filled? "XDG_CONFIG_HOME" with
  | some dir => .ok ((Path.ofText dir).child userCatalogName)
  | none => (s.expandHome ['~']).map fun home =>
      ((Path.ofText home).child ".config").child userCatalogName

/-- The catalog of a text, and the reader of YAML afterwards; a blank text has none. -/
def catalogOf (reader : Yaml.Reader) (p : Path) (text : Text) :
    Noted (Option Catalog) × Yaml.Reader :=
  if Text.isBlankText text then (pure none, reader)
  else match Catalog.parseAfter reader p.toText text with
    | (.ok c, reader) =>
      (⟨[.catalogRead c.commands.length p.toText c.settings.isSome], .ok (some c)⟩, reader)
    | (.error e, reader) => (⟨[], .error e⟩, reader)

/-- The catalog in a file, and the reader of YAML afterwards; a missing file has none. -/
def readCatalog (reader : Yaml.Reader) (s : Surroundings) (p : Path) :
    Noted (Option Catalog) × Yaml.Reader :=
  match s.content? p with
  | .error e => (⟨[], .error e⟩, reader)
  | .ok none => (⟨[.catalogMissing p.toText], .ok none⟩, reader)
  | .ok (some bytes) =>
    match Text.decode bytes with
    | .error e => (⟨[], .error (.undecodable e)⟩, reader)
    | .ok text => catalogOf reader p (Text.normalizeNewlines text)

/-- The path of the catalog above a directory, unless it is the one at another path. -/
def localCatalogPath? (s : Surroundings) (directory user : Path) :
    Except Failure (Option Path) := do
  match ← s.dominating? directory localCatalogName with
  | some p => if (← s.place p) = (← s.place user) then return none else return some p
  | none => return none

/-- The user's catalog may be given by its path, and then it has to exist. -/
def chosenPath (s : Surroundings) (given : Option Path) : Except Failure Path :=
  match given with
  | none => userCatalogPath s
  | some p => do if (← s.content? p).isSome then .ok p else .error (.configMissing p.toText)

/-- The user's catalog and the nearest one of a directory, if they exist, and the reader of YAML after
them. -/
def readCatalogs (reader : Yaml.Reader) (s : Surroundings) (directory user : Path) :
    Noted (List Catalog) × Yaml.Reader :=
  let (first, reader) := readCatalog reader s user
  match first.result, localCatalogPath? s directory user with
  | .error _, _ => (do return (← first).toList, reader)
  | .ok _, .ok none => (do return (← first).toList, reader)
  | .ok _, .error e =>
    (do
      let _ ← first
      .ofExcept (.error e), reader)
  | .ok _, .ok (some p) =>
    let (second, reader) := readCatalog reader s p
    (do return (← first).toList ++ (← second).toList, reader)

/-- The configuration in a directory, and the reader of YAML afterwards. -/
def Config.loadAfter (reader : Yaml.Reader) (s : Surroundings) (directory : Path)
    (given : Option Path) (overrides : Option Settings) : Noted Config × Yaml.Reader :=
  match chosenPath s given with
  | .error e => (.ofExcept (.error e), reader)
  | .ok path =>
    let (catalogs, reader) := readCatalogs reader s directory path
    (do
      let config ← .ofExcept (merge (← catalogs) overrides)
      Noted.note (.configLoaded config.commands.length config.sources)
      return config, reader)

/-- The configuration in a directory. -/
def Config.load (s : Surroundings) (directory : Path) (given : Option Path)
    (overrides : Option Settings) : Noted Config :=
  (Config.loadAfter {} s directory given overrides).1

end Runbook
