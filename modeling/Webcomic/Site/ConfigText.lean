import Webcomic.Files.Tree
import Webcomic.Site.Error
import Webcomic.Text.Blank

/-!
# Configuration files

A configuration is written as a record in YAML in which every key can be left out. The empty text
leaves all of them out. A configuration that has been read has been checked too.
-/

namespace Webcomic.Site

open Files Yaml

/-- A field that holds a text. -/
def textField {C : Type} (name : String) (set : String → C → C) : RecordField C :=
  .of name (.text "a string") set

/-- A field that holds a text or nothing. -/
def optionalTextField {C : Type} (name : String) (set : Option String → C → C) : RecordField C :=
  .of name (.optional (.text "a string")) set

namespace NavLabels

/-- The fields of the labels. -/
def fields : List (RecordField NavLabels) :=
  [textField "first" fun s n => { n with first := s },
    textField "previous" fun s n => { n with previous := s },
    textField "next" fun s n => { n with next := s },
    textField "last" fun s n => { n with last := s },
    optionalTextField "first_ghosted" fun s n => { n with firstGhosted := s },
    optionalTextField "previous_ghosted" fun s n => { n with previousGhosted := s },
    optionalTextField "next_ghosted" fun s n => { n with nextGhosted := s },
    optionalTextField "last_ghosted" fun s n => { n with lastGhosted := s }]

/-- Reads labels. -/
def reader : Reader NavLabels :=
  .record "struct NavLabels" fields {}

end NavLabels

/-- Reads when a comic day goes live. -/
def UpdateDay.reader : Reader UpdateDay :=
  .variant [("same", .same), ("previous", .previous)]

namespace Config

/-- The fields of a configuration. -/
def fields : List (RecordField Config) :=
  [textField "url" fun s c => { c with url := s },
    .of "base_dir" (.text "path string") fun s c => { c with baseDir := s },
    textField "update_time" fun s c => { c with updateTime := s },
    .of "update_day" UpdateDay.reader fun d c => { c with updateDay := d },
    .of "tz_offset" (.optional .int32) fun n c => { c with tzOffset := n },
    textField "comics_dir" fun s c => { c with comicsDir := s },
    textField "upload_dir" fun s c => { c with uploadDir := s },
    textField "site_dir" fun s c => { c with siteDir := s },
    textField "parse_dir" fun s c => { c with parseDir := s },
    textField "image_dir" fun s c => { c with imageDir := s },
    textField "daily_dir" fun s c => { c with dailyDir := s },
    textField "work_dir" fun s c => { c with workDir := s },
    textField "data_dir" fun s c => { c with dataDir := s },
    textField "daily_ext" fun s c => { c with dailyExt := s },
    textField "daily_template" fun s c => { c with dailyTemplate := s },
    textField "index_file" fun s c => { c with indexFile := s },
    .of "nav" NavLabels.reader fun n c => { c with nav := n }]

/-- Reads a configuration. -/
def reader : Reader Config :=
  .record "struct Config" fields {}

/-- The configuration if it has no flaw. -/
def checked (c : Config) : Except Error Config :=
  match c.flaw? with
  | some flaw => .error (.config flaw)
  | none => .ok c

/-- The configuration that a text describes. -/
def ofText (text : String) : Except Error Config :=
  if Text.allBlank text then
    checked {}
  else
    match Yaml.read reader text with
    | .error problem => .error (.yaml problem)
    | .ok c => checked c

/-- The configuration with its base directory seen from the directory of the file it was read
from. -/
def relativeTo (c : Config) (path : Path) : Config :=
  if c.baseDir.isAbsolute then c
  else { c with baseDir := (path.parent?.getD ".").join c.baseDir }

/-- The configuration in a file. -/
def load (files : FileTree) (path : Path) : Except Error Config :=
  match files.readText path with
  | .error fault => .error (.configRead path fault)
  | .ok text => (ofText text).map (·.relativeTo path)

end Config

end Webcomic.Site
