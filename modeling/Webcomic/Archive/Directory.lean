import Webcomic.Archive.Basic
import Webcomic.Archive.FileDate
import Webcomic.Files.Tree

/-!
# Archives in directories

The comic files of a directory are its plain files that are dated with a real day; everything else
in it is passed over. Since the files of a day are put in the order of their names, the archive of
a directory does not depend on the order in which the directory is listed.
-/

namespace Webcomic.Archive

open Calendar Files

/-- The comic files among the entries of a directory. -/
def datedFiles (entries : List (String × Node)) : List (Date × String) :=
  entries.filterMap fun (name, node) =>
    if node.isFile then (dateOfName? name).map (·, name) else none

/-- The archive of the entries of a directory. -/
def ofEntries (entries : List (String × Node)) : Archive :=
  (ofFiles (datedFiles entries)).sortFiles

/-- The archive of the directory that a path names. -/
def read (files : FileTree) (dir : Path) : Except Fault Archive :=
  (files.list dir).map ofEntries

end Webcomic.Archive
