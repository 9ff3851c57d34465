import WikiPress.Proofs.Site.SourceReading

/-!
# What a build comes to

Before anything is saved a build has read its configuration and prepared an edition.  Both
are told by the sources of the site, as far as the paths that it gives by name are read
alike.
-/

namespace WikiPress.Site

open Files Files.Tree Compilation

variable {workingDirectory : Place} {site : Site} {generatedAt : Moment}
  {first second tree : Tree} {config : Config}

/-! ## Texts -/

theorem answers_load (tree : Tree) (path : Path) :
    site.answers workingDirectory tree (.load path) =
      (tree.text workingDirectory (Path.join site.input path)).mapError
        (LoadError.ofFileError path) := by
  change ((((system workingDirectory).readText (Path.join site.input path)).run tree).1).mapError
    (LoadError.ofFileError path) = _
  rw [run_readText]

theorem answers_loadBinary (tree : Tree) (path : Path) :
    site.answers workingDirectory tree (.loadBinary path) =
      (tree.read workingDirectory (Path.join site.input path)).mapError
        (LoadError.ofFileError path) :=
  rfl

theorem isSome_of_text {path : Path} {text : String}
    (read : tree.text workingDirectory path = .ok text) :
    (tree.node? (writtenPlace workingDirectory path)).isSome = true := by
  obtain ⟨bytes, read⟩ := exists_read_of_text read
  exact isSome_of_read read

/-- What has been loaded lies in the tree. -/
theorem isSome_of_answers_load {path : Path} {text : String}
    (loaded : site.answers workingDirectory tree (.load path) = .ok text) :
    (tree.node? (writtenPlace workingDirectory (Path.join site.input path))).isSome = true := by
  rw [answers_load] at loaded
  cases read : tree.text workingDirectory (Path.join site.input path) with
  | error error =>
      rw [read] at loaded
      cases loaded
  | ok text => exact isSome_of_text read

/-! ## The first phase -/

/-- The calls of the first phase in a tree. -/
def calls (workingDirectory : Place) (generatedAt : Moment) (site : Site) (config : Config)
    (tree : Tree) : List Call :=
  (prepare Program.loader config generatedAt).calls (site.answers workingDirectory tree)

theorem asksFor_of_mem_calls {call : Call}
    (member : call ∈ site.calls workingDirectory generatedAt config tree) :
    call.AsksFor config ((site.calls workingDirectory generatedAt config tree).map fun call =>
      ⟨call, site.answers workingDirectory tree call⟩) :=
  asksFor_of_run_prepare (Program.run_of_answers _ _) _ (List.mem_map_of_mem member)

/-- In trees with the same sources the first phase comes to the same, if the template and
the fragments that are asked for are read alike. -/
theorem value_prepare_congr (stands : Stands workingDirectory first site)
    (firstTree : first.IsFileTree) (secondTree : second.IsFileTree)
    (sources : SameSources (Path.parts site.output) first second)
    (template : AgreeAlong workingDirectory (Path.join site.input config.template) first second)
    (fragment : ∀ name, Call.load (Include.fragmentPath name) ∈
        site.calls workingDirectory generatedAt config first →
      AgreeAlong workingDirectory (Path.join site.input (Include.fragmentPath name)) first
        second) :
    (prepare Program.loader config generatedAt).value (site.answers workingDirectory second) =
      (prepare Program.loader config generatedAt).value (site.answers workingDirectory first) := by
  refine (Program.value_and_calls_congr fun call member => ?_).1
  have listed {pattern : String} {paths : List Path} {path : Path}
      (event : (⟨.glob pattern, .ok paths⟩ : Event) ∈
        (site.calls workingDirectory generatedAt config first).map fun call =>
          ⟨call, site.answers workingDirectory first call⟩) (pathMember : path ∈ paths) :
      AgreeAlong workingDirectory (Path.join site.input path) first second := by
    obtain ⟨call, _, same⟩ := List.mem_map.mp event
    obtain ⟨rfl, answer⟩ := Event.mk.inj same
    obtain ⟨leads, lies⟩ := stands.of_listed firstTree (eq_of_heq answer) pathMember
    exact leads.agreeAlong_of_lies firstTree sources lies
  have text {path : Path}
      (agree : AgreeAlong workingDirectory (Path.join site.input path) first second) :
      site.answers workingDirectory second (.load path) =
        site.answers workingDirectory first (.load path) := by
    rw [answers_load, answers_load, agree.text]
  cases asksFor_of_mem_calls member with
  | template => exact text template
  | fragment name => exact text (fragment name member)
  | list pattern => exact stands.answers_glob_congr firstTree secondTree sources pattern
  | page event pathMember => exact text (listed event pathMember)
  | asset event pathMember =>
      rw [answers_loadBinary, answers_loadBinary, (listed event pathMember).read]

/-! ## The configuration -/

/-- The configuration that a file holds in a tree. -/
def configOfFile (workingDirectory : Place) (tree : Tree) (path : Path) :
    Except ConfigError Config :=
  match tree.text workingDirectory path with
  | .ok text => Config.ofText text
  | .error error => .error (.unreadable error)

theorem run_ofFile (tree : Tree) (path : Path) :
    (Config.ofFile (system workingDirectory) path).run tree =
      (configOfFile workingDirectory tree path, tree) := by
  unfold Config.ofFile configOfFile
  rw [run_bind_state, run_readText]
  cases tree.text workingDirectory path <;> rfl

theorem run_discover (tree : Tree) (directory : Path) :
    (Config.discover (system workingDirectory) directory).run tree =
      (if tree.kind workingDirectory (Path.join directory Config.fileName) = .ok .file then
        configOfFile workingDirectory tree (Path.join directory Config.fileName)
      else .ok {}, tree) := by
  have asked : ((system workingDirectory).kind (Path.join directory Config.fileName)).run tree =
      (tree.kind workingDirectory (Path.join directory Config.fileName), tree) := rfl
  unfold Config.discover System.isFile
  rw [run_bind_state, run_bind_state, asked]
  rcases tree.kind workingDirectory (Path.join directory Config.fileName) with _ | _ | _
  · rfl
  · exact run_ofFile tree _
  · rfl

/-- The configuration of a site in a tree. -/
def configIn (workingDirectory : Place) (tree : Tree) (site : Site) : Except SiteError Config :=
  ((site.loadConfig (system workingDirectory)).run tree).1

theorem run_loadConfig (tree : Tree) :
    (site.loadConfig (system workingDirectory)).run tree =
      (site.configIn workingDirectory tree, tree) := by
  refine Prod.ext rfl ?_
  unfold loadConfig
  cases site.configFile with
  | none =>
      simp only
      rw [run_bind_state, run_discover]
      rfl
  | some path =>
      simp only
      rw [run_bind_state, run_ofFile]
      rfl

theorem configIn_of_none (absent : site.configFile = none) (tree : Tree) :
    site.configIn workingDirectory tree =
      (if tree.kind workingDirectory (Path.join site.input Config.fileName) = .ok .file then
        configOfFile workingDirectory tree (Path.join site.input Config.fileName)
      else .ok {}).mapError SiteError.configuration := by
  unfold configIn loadConfig
  rw [absent]
  simp only
  rw [run_bind_state, run_discover]
  rfl

theorem configIn_of_some {path : Path} (given : site.configFile = some path) (tree : Tree) :
    site.configIn workingDirectory tree =
      (configOfFile workingDirectory tree path).mapError SiteError.configuration := by
  unfold configIn loadConfig
  rw [given]
  simp only
  rw [run_bind_state, run_ofFile]
  rfl

theorem configOfFile_congr {path : Path}
    (agree : AgreeAlong workingDirectory path first second) :
    configOfFile workingDirectory second path = configOfFile workingDirectory first path := by
  unfold configOfFile
  rw [agree.text]

/-- Where a file is said to be, one lies. -/
theorem exists_file_of_kind {path : Path} (fileTree : tree.IsFileTree)
    (absolute : Path.isAbsolute path = true)
    (kind : tree.kind workingDirectory path = .ok .file) :
    ∃ content, tree.file? (writtenPlace workingDirectory path) = some content := by
  unfold Tree.kind at kind
  cases located : tree.locate workingDirectory path with
  | error error =>
      rw [located] at kind
      cases kind
  | ok place =>
      rw [located] at kind
      have begins : (tree.node? (startOf workingDirectory path)).isSome = true := by
        rw [startOf, if_pos absolute]
        rfl
      have lies := fileTree.isSome_of_walk begins (locate_eq_ok_iff.mp located).2.1
      have placeEq : place = writtenPlace workingDirectory path := locate_eq_resolve located
      rw [← placeEq]
      obtain ⟨node, nodeEq⟩ := Option.isSome_iff_exists.mp lies
      cases node with
      | file content => exact ⟨content, by rw [file?, nodeEq]⟩
      | directory =>
          simp only [Bind.bind, Except.bind, isDirectory_iff.mpr nodeEq] at kind
          cases kind

/-- A root is no file. -/
theorem HasRoom.file?_eq_none {root : Path} (room : HasRoom root tree) :
    tree.file? (Path.parts root) = none := by
  unfold file?
  rcases room.absent_or_directory with absent | directory
  · rw [absent]
  · rw [directory]

/-- The configuration of a site is told by its sources. -/
theorem configIn_congr (stands : Stands workingDirectory first site)
    (firstRoom : HasRoom site.output first) (secondRoom : HasRoom site.output second)
    (sources : SameSources (Path.parts site.output) first second)
    (given : ∀ path ∈ site.configFile, AgreeAlong workingDirectory path first second) :
    site.configIn workingDirectory second = site.configIn workingDirectory first := by
  cases configFile : site.configFile with
  | some path =>
      rw [configIn_of_some configFile, configIn_of_some configFile,
        configOfFile_congr (given path configFile)]
  | none =>
      have isName : Path.IsName Config.fileName := by decide
      have direct := stands.input.toIsDirect.join (Path.isPlain_of_isName isName)
      have placeEq : writtenPlace workingDirectory (Path.join site.input Config.fileName) =
          Path.parts site.input ++ [Config.fileName] := by
        rw [writtenPlace_join (Path.isPlain_of_isName isName), stands.input.writtenPlace_eq,
          Path.parts_of_isPart isName.toIsPart]
      rw [configIn_of_none configFile, configIn_of_none configFile]
      -- The output may be where the configuration file would lie, but then no tree has one.
      have inside (below : Path.parts site.output <+:
          Path.parts site.input ++ [Config.fileName]) :
          Path.parts site.output = Path.parts site.input ++ [Config.fileName] :=
        (List.prefix_concat_iff.mp below).resolve_right stands.apart
      by_cases lies : ∃ content,
          first.file? (Path.parts site.input ++ [Config.fileName]) = some content
      · obtain ⟨content, lies⟩ := lies
        have outside : ¬ Path.parts site.output <+:
            Path.parts site.input ++ [Config.fileName] := by
          intro below
          rw [← inside below, firstRoom.file?_eq_none] at lies
          cases lies
        have leads : LeadsOutside workingDirectory (Path.parts site.output)
            (Path.join site.input Config.fileName) :=
          ⟨fun rises => (direct.isName _ rises).ne_above rfl, by rwa [placeEq]⟩
        have agree := leads.agreeAlong_of_lies firstRoom.fileTree sources
          (by rw [placeEq]; exact isSome_of_file? lies)
        rw [← agree.kind, configOfFile_congr agree]
      · have secondLies : ¬ ∃ content,
            second.file? (Path.parts site.input ++ [Config.fileName]) = some content := by
          by_cases below : Path.parts site.output <+:
              Path.parts site.input ++ [Config.fileName]
          · rw [← inside below, secondRoom.file?_eq_none]
            exact nofun
          · rwa [sources.file?_eq below]
        rw [← placeEq] at lies secondLies
        rw [if_neg fun kind => lies (exists_file_of_kind firstRoom.fileTree direct.absolute kind),
          if_neg fun kind =>
            secondLies (exists_file_of_kind secondRoom.fileTree direct.absolute kind)]

/-! ## Builds -/

/-- What a build comes to in a tree before anything is saved. -/
def editionIn (workingDirectory : Place) (generatedAt : Moment) (tree : Tree) (site : Site) :
    Except SiteError Edition :=
  match site.configIn workingDirectory tree with
  | .error error => .error error
  | .ok config =>
    ((prepare Program.loader config generatedAt).value
      (site.answers workingDirectory tree)).mapError SiteError.compilation

/-- A program that only reads has the value that it has with the answers of a tree. -/
theorem run_interpret_of_reads {α : Type} {program : Program α}
    (uses : program.Uses Call.IsRead) (tree : Tree) :
    (program.interpret (Handler.ofTree workingDirectory site.input site.outputInInput?.toList
      site.output)).run tree = (program.value (site.answers workingDirectory tree), tree) := by
  induction program with
  | done value => rfl
  | ask call next ih =>
      rw [Program.interpret_ask, run_bind_state, Handler.run_ofTree_of_isRead uses.1]
      exact ih _ (uses.2 _)

/-- A build reads, and then publishes what it has come to. -/
theorem run_compile (tree : Tree) :
    (site.compile (system workingDirectory) generatedAt).run tree =
      match site.editionIn workingDirectory generatedAt tree with
      | .error error => (.error error, tree)
      | .ok edition =>
        match (publish (site.saver (system workingDirectory)) edition).run tree with
        | (.error error, after) => (.error (.compilation (.save error)), after)
        | (.ok (), after) => (.ok edition.report, after) := by
  unfold compile editionIn
  rw [run_bind_state, run_loadConfig]
  cases site.configIn workingDirectory tree with
  | error error => rfl
  | ok config =>
      have prepared : (prepare (site.loader (system workingDirectory)) config generatedAt).run
          tree = ((prepare Program.loader config generatedAt).value
            (site.answers workingDirectory tree), tree) := by
        rw [← run_interpret_of_reads (uses_prepare config generatedAt), Handler.ofTree,
          interpret_prepare]
        rfl
      unfold Compilation.run
      simp only
      rw [run_bind_state, run_bind_state, prepared]
      cases (prepare Program.loader config generatedAt).value
          (site.answers workingDirectory tree) with
      | error error => rfl
      | ok edition =>
          simp only [Except.mapError]
          rw [run_bind_state]
          rcases (publish (site.saver (system workingDirectory)) edition).run tree with
            ⟨_ | _, after⟩ <;> rfl

/-! ## Editions in a tree -/

variable {edition : Edition}

/-- What a build comes to is told by its sources, if the paths that it gives by name are read
alike. -/
theorem editionIn_congr (stands : Stands workingDirectory first site)
    (firstRoom : HasRoom site.output first) (secondRoom : HasRoom site.output second)
    (sources : SameSources (Path.parts site.output) first second)
    (given : ∀ path ∈ site.configFile, AgreeAlong workingDirectory path first second)
    (template : ∀ config, site.configIn workingDirectory first = .ok config →
      AgreeAlong workingDirectory (Path.join site.input config.template) first second)
    (fragment : ∀ config, site.configIn workingDirectory first = .ok config → ∀ name,
      Call.load (Include.fragmentPath name) ∈
          site.calls workingDirectory generatedAt config first →
        AgreeAlong workingDirectory (Path.join site.input (Include.fragmentPath name)) first
          second) :
    site.editionIn workingDirectory generatedAt second =
      site.editionIn workingDirectory generatedAt first := by
  have configs := configIn_congr stands firstRoom secondRoom sources given
  unfold editionIn
  rw [configs]
  cases read : site.configIn workingDirectory first with
  | error error => rfl
  | ok config =>
      simp only
      rw [value_prepare_congr stands firstRoom.fileTree secondRoom.fileTree sources
        (template config read) (fragment config read)]

theorem exists_config_of_editionIn
    (made : site.editionIn workingDirectory generatedAt tree = .ok edition) :
    ∃ config, site.configIn workingDirectory tree = .ok config ∧
      (prepare Program.loader config generatedAt).value (site.answers workingDirectory tree) =
        .ok edition := by
  unfold editionIn at made
  cases read : site.configIn workingDirectory tree with
  | error error =>
      rw [read] at made
      cases made
  | ok config =>
      rw [read] at made
      refine ⟨config, rfl, ?_⟩
      simp only at made
      cases prepared : (prepare Program.loader config generatedAt).value
          (site.answers workingDirectory tree) with
      | error error =>
          rw [prepared] at made
          cases made
      | ok found =>
          rw [prepared] at made
          cases made
          rfl

/-- The path of an edition, with what has been answered in the tree. -/
theorem run_prepare_of_value
    (prepared : (prepare Program.loader config generatedAt).value
      (site.answers workingDirectory tree) = .ok edition) :
    (prepare Program.loader config generatedAt).Run
      ((site.calls workingDirectory generatedAt config tree).map fun call =>
        ⟨call, site.answers workingDirectory tree call⟩) (.ok edition) := by
  rw [← prepared]
  exact Program.run_of_answers _ _

/-- An edition has loaded all that it asked for. -/
theorem exists_text_of_editionIn
    (made : site.editionIn workingDirectory generatedAt tree = .ok edition)
    (read : site.configIn workingDirectory tree = .ok config) {path : Path}
    (asked : .load path ∈ site.calls workingDirectory generatedAt config tree) :
    ∃ text, site.answers workingDirectory tree (.load path) = .ok text := by
  obtain ⟨found, same, prepared⟩ := exists_config_of_editionIn made
  rw [read] at same
  cases same
  have loaded := loaded_of_run_prepare (run_prepare_of_value prepared)
    ⟨.load path, site.answers workingDirectory tree (.load path)⟩
    (List.mem_map.mpr ⟨_, asked, rfl⟩)
  exact loaded

theorem load_template_mem_calls :
    .load config.template ∈ site.calls workingDirectory generatedAt config tree :=
  List.mem_cons_self

/-- A build that has come to an edition has read its configuration file. -/
theorem isSome_of_editionIn
    (made : site.editionIn workingDirectory generatedAt tree = .ok edition) {path : Path}
    (given : site.configFile = some path) :
    (tree.node? (writtenPlace workingDirectory path)).isSome = true := by
  obtain ⟨config, read, _⟩ := exists_config_of_editionIn made
  rw [configIn_of_some given] at read
  unfold configOfFile at read
  cases text : tree.text workingDirectory path with
  | error error =>
      rw [text] at read
      cases read
  | ok content => exact isSome_of_text text

/-- The files of an edition have plain paths. -/
theorem plain_of_editionIn (fileTree : tree.IsFileTree)
    (made : site.editionIn workingDirectory generatedAt tree = .ok edition) : edition.Plain := by
  obtain ⟨config, _, prepared⟩ := exists_config_of_editionIn made
  have answered : ∀ event ∈ (site.calls workingDirectory generatedAt config tree).map
      fun call => (⟨call, site.answers workingDirectory tree call⟩ : Event),
      ((Handler.ofTree workingDirectory site.input site.outputInInput?.toList site.output
        event.call).run tree).1 = event.answer := by
    intro event member
    obtain ⟨call, _, rfl⟩ := List.mem_map.mp member
    rfl
  exact plain_of_run_prepare (run_prepare_of_value prepared) fileTree.named answered

end WikiPress.Site
