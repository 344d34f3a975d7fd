import Runbook.Execution.Wrapping

/-! Running commands. The source is written to a script that goes to the interpreter of its
language; the script is removed afterwards, by the process itself when that is left alone. -/
namespace Runbook.Execution

/-- The directory of scripts. The model takes for granted that they go there, and that the
surroundings name no other directory for temporary files. -/
def scriptDirectory : Text := "/tmp/"

/-- Why no script can have a name, if so: the name stands in that of a file. With a slash in it the
part before would have to be a directory. The model takes for granted that no directory whose name
begins like that of a script stands in the directory of scripts. -/
def nameFault? (start finish : Text) : Option Failure :=
  let whole := start ++ List.replicate 8 'x' ++ finish
  if start.contains '\x00' then some .nulByte
  else if Path.isLongText (scriptDirectory ++ whole) then some .nameTooLong
  else if Path.isLongName (whole.takeWhile (· != '/')) then some .nameTooLong
  else if start.contains '/' then some .fileMissing
  else none

/-- Something done with the script of a command, which is removed at the end unless it is kept. -/
def withScript {α : Type} (c : Command) (kept : Bool) (use : Text → Dialogue Deed α) :
    Dialogue Deed α :=
  let start := "nixon-" ++ c.name ++ ['-']
  match nameFault? start c.language.suffix with
  | some e => .fail e
  | none =>
    .ask (.writeScript start c.language.suffix c.source) fun path =>
      if kept then use path
      else (use path).endingWith (.ask (.removeScript path) fun _ => .done ())

/-- The output of a command. -/
def evaluate (s : Surroundings) (c : Command) (inputs : Inputs) (directory : Path)
    (o : ExecOptions) : Dialogue Deed Text :=
  withScript c false fun script =>
    let wrapped := do wrapEnvironment s directory o ((← scriptLine c script) ++ inputs.arguments)
    match wrapped with
    | .error e => .fail e
    | .ok argv =>
      .ask (.run ⟨argv, some directory, some inputs.environment, some (inputs.text?.getD [])⟩)
        fun outcome =>
          match outcome with
          | none => .fail (.executableMissing (argv.headD []))
          | some r =>
            if r.code = 0 then .done r.output else .fail (.commandFailed c.name r.code r.errors)

/-- The script of a process that is left alone removes itself at the end. -/
def cleanUp : Text := "\"$@\"; rc=$?; rm -f \"$0\"; exit $rc"

/-- The command line that runs a command, from its script on. -/
def commandLine (s : Surroundings) (c : Command) (inputs : Inputs) (directory : Path)
    (o : ExecOptions) (extra : List Text) (interactive : Bool) (script : Text) :
    Except Failure (List Text) := do
  let line ← scriptLine c script
  let wrapped ← wrapEnvironment s directory o (line ++ inputs.arguments ++ extra)
  wrapTerminal c.background interactive o wrapped

/-- Runs a command and tells its exit code; that of a background command is zero. -/
def run (s : Surroundings) (c : Command) (inputs : Inputs) (directory : Path) (o : ExecOptions)
    (extra : List Text) (interactive : Bool) : Dialogue Deed Int :=
  withScript c c.background fun script =>
    match commandLine s c inputs directory o extra interactive script with
    | .error e => .fail e
    | .ok argv =>
      let call (argv : List Text) : Call :=
        ⟨argv, some directory, some inputs.environment, inputs.text?⟩
      if c.background then
        .ask (.detach (call ("sh".toList :: "-c".toList :: cleanUp :: script :: argv))) fun found =>
          if found then .done 0 else .fail (.executableMissing (argv.headD []))
      else
        .ask (.run (call argv)) fun outcome =>
          match outcome with
          | none => .fail (.executableMissing (argv.headD []))
          | some r => .done r.code

/-- Opens the editor at the first line of a command. -/
def edit (s : Surroundings) (l : Location) : Dialogue Deed Int :=
  match Shell.split ((s.filled? "EDITOR").getD "vi") with
  | .error e => .fail e
  | .ok editor =>
    .ask (.run { argv := editor ++ ['+' :: Text.ofInt l.first, l.path] }) fun outcome =>
      match outcome with
      | some r => .done r.code
      | none =>
        match editor with
        | program :: _ => .fail (.editorMissing program)
        | [] => .fail .editorUnnamed

end Runbook.Execution
