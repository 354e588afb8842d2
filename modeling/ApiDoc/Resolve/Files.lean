import ApiDoc.Resolve.Members

/-!
# Resolving files and projects

A module lists what it exports, a script whatever it declares.  A project is made of files resolved
in order within one session.
-/

namespace ApiDoc

namespace Environment

variable (env : Environment)

/-- What a file imports, if it is a module, and then what it refers to by path. -/
def imports (file : FileId) (isModule : Bool) : Answer (List Import) := do
  let modules ← if isModule then env.checker.resolvedModules file else pure []
  let references ← env.checker.referencedFiles file
  return modules.map (fun (m : ResolvedModule) => {
      name := m.name
      resolvedName := some (normalizePath m.resolvedFileName)
      path := m.unresolvedPath.map normalizePath
      external := m.isExternal }) ++
    references.map fun name => { name, reference := true }

/-- A symbol that a module exports; the first name under which its member is exported stays. -/
def exportedMember (symbol : SymbolId) : Resolve (Option MemberRef) := do
  match ← env.resolveMember symbol with
  | some r =>
    let name ← env.checker.symbolName symbol
    let member ← Resolve.getMember r
    Resolve.setMember r { member with exportName := member.exportName.or (some name) }
    return some r
  | none => return none

/-- The members of a file. -/
def fileMembers (file : FileId) (isModule : Bool) : Resolve (List MemberRef) := do
  let found ← if isModule then do
      let symbol ← env.checker.symbolAtLocation (← env.checker.fileNode file)
      (← env.checker.exportsOfModule symbol).mapM env.exportedMember
    else do
      (← env.checker.fileLocals file).mapM env.resolveMember
  return found.filterMap id

/-- The name of a file's module: that of its tags, or else that of the checker, or else its path. -/
def fileTitle (file : FileId) (facts : FileFacts) (fileName : String) : Answer String := do
  match facts.name with
  | some name => return name
  | none => return (← env.checker.moduleName file).getD fileName

/-- A file with its members. -/
def resolveFile (file : FileId) : Resolve SourceFile := do
  let fileName := normalizePath (← env.checker.fileName file)
  let facts ← FileFacts.read env.locator (← env.checker.fileText file)
  let isModule ← env.checker.isExternalModule file
  let name ← env.fileTitle file facts fileName
  let declaration ← env.checker.isDeclarationFile file
  let imports ← env.imports file isModule
  let members ← env.fileMembers file isModule
  return {
    fileName, name, declaration, isModule
    summary := facts.summary.getD ""
    author := facts.author
    version := facts.version
    copyright := facts.copyright
    license := facts.license
    customTags := facts.customTags
    imports, members }

/-- The project of some files, resolved in order. -/
def assemble (files : List FileId) : Except Error Project :=
  let (resolved, session) := (files.mapM env.resolveFile).run.run {}
  return { files := ← resolved, graph := session.graph }

/-- The project of all files of the program. -/
def assembleRoots : Except Error Project := do env.assemble (← env.checker.rootFiles)

end Environment

end ApiDoc
