import Scriptlet.Text.Lower
import Scriptlet.Node.Dot
import Scriptlet.Console.Disk

/-! The package that makes pictures of drawings. What it does is not part of the program; the program
only says what came of it. -/
namespace Scriptlet.Console

/-- What comes of a drawing that is to be made a picture: the path of the picture or the reason why there
is none, the disk afterwards, and lines for the log, each with where it comes from. -/
structure Picture where
  result : Except String String
  disk : Disk
  log : Array (String × String)

/-- Makes a picture at a path, to which it adds the format. -/
structure Plotter where
  render (drawing : Drawing) (path : String) (format : Option String) (disk : Disk) : Picture

namespace Plotter

/-- The formats that a picture can be asked for in. -/
def formats : List String :=
  ["bmp", "canon", "cgimage", "cmap", "cmapx", "cmapx_np", "dot", "dot_json", "eps", "exr", "fig",
   "gd", "gd2", "gif", "gtk", "gv", "ico", "imap", "imap_np", "ismap", "jp2", "jpe", "jpeg", "jpg",
   "json", "json0", "pct", "pdf", "pic", "pict", "plain", "plain-ext", "png", "pov", "ps", "ps2",
   "psd", "sgi", "svg", "svg_inline", "svgz", "tga", "tif", "tiff", "tk", "vml", "vmlz", "vrml",
   "wbmp", "webp", "x11", "xdot", "xdot1.2", "xdot1.4", "xdot_json", "xlib"]

/-- The steps on the way to a picture, each with the line that the log has for it. -/
def perform (done : Array (String × String)) (disk : Disk) :
    List ((String × String) × OnDisk Unit) → Picture
  | [] => ⟨.error "failed to execute PosixPath('dot'), make sure the Graphviz executables are on your systems' PATH",
      disk, done⟩
  | (line, action) :: rest =>
    match action disk with
    | .ok _ after => perform (done.push line) after rest
    | .error error after => ⟨.error error.message, after, done.push line⟩

/-- Makes the folders that hold a path, writes a text to the path, and asks for it to be made a picture. -/
def steps (path text format : String) : List ((String × String) × OnDisk Unit) :=
  let folder := Path.parent path
  (if folder == "" then []
    else [(("graphviz._tools", "os.makedirs(" ++ Text.quoted folder ++ ")"),
      OnDisk.ensureFolders (Path.chain folder))]) ++
  [(("graphviz.saving", "write lines to " ++ Text.quoted path), OnDisk.write path text.toUTF8),
    (("graphviz.backend.execute", "run [PosixPath('dot'), '-Kdot', " ++ Text.quoted ("-T" ++ format) ++
      ", '-O', " ++ Text.quoted (Path.last path) ++ "]"), pure ())]

/-- Where the program that would make the picture is not installed: a drawing in a format whose name, read
in lower case, is known gets as far as a file with its text. -/
def uninstalled : Plotter where
  render drawing path format disk :=
    match format.map Text.lower with
    | none => ⟨.error "'list' object has no attribute 'lower'", disk, #[]⟩
    | some name =>
      if formats.contains name then perform #[] disk (steps path drawing.text name)
      else ⟨.error ("unknown format: " ++ Text.quoted name ++ " (must be one of [" ++
        String.intercalate ", " (formats.map Text.quoted) ++ "])"), disk, #[]⟩

end Plotter

end Scriptlet.Console
