import DesignGraph.Text.Line

/-!
# Stock files of web packages

The texts that come with the library for web packages: the runtime, the classes of the prefab types
and the templates.
-/

namespace DesignGraph.Stock.Web

/-- The runtime that every script package begins with. -/
def runtime : String :=
  Text.ofLines [
    "class Tessera \x7b",
    "  constructor(componentType) \x7b",
    "    this.componentType = componentType;",
    "    this.component = new componentType();",
    "    this.subscribers = [];",
    "  \x7d",
    "",
    "  attach(subscriber) \x7b",
    "    this.subscribers.push(subscriber);",
    "    subscriber(this.component);",
    "    return this;",
    "  \x7d",
    "",
    "  detach(subscriber) \x7b",
    "    this.subscribers = this.subscribers.filter((candidate) => candidate !== subscriber);",
    "    return this;",
    "  \x7d",
    "",
    "  update(properties) \x7b",
    "    Object.assign(this.component, properties);",
    "    for (const subscriber of this.subscribers) \x7b",
    "      subscriber(this.component);",
    "    \x7d",
    "  \x7d",
    "\x7d",
    "",
    "Tessera.staticRoot = '/tessera';",
    "",
    "module.exports.Tessera = Tessera;"]

/-- The declarations of the runtime. -/
def runtimeDeclarations : String :=
  Text.ofLines [
    "export declare class Tessera<T> \x7b",
    "  static staticRoot: string;",
    "  constructor(componentType: new () => T);",
    "  readonly component: T;",
    "  attach(subscriber: (component: T) => void): this;",
    "  detach(subscriber: (component: T) => void): this;",
    "  update(properties: Partial<T>): void;",
    "\x7d"]

/-- Reloads the page when the package is compiled again. -/
def hotComponent : String :=
  Text.ofLines [
    "// Companion module for hot clients: applies component updates pushed by the hot server.",
    "module.exports.connect = (tessera, url) => \x7b",
    "  const source = new EventSource(`$\x7burl\x7d/events`);",
    "  source.addEventListener('update', (event) => \x7b",
    "    const \x7bcomponent, properties\x7d = JSON.parse(event.data);",
    "    if (component === tessera.componentType.name) \x7b",
    "      tessera.update(properties);",
    "    \x7d",
    "  \x7d);",
    "  return () => source.close();",
    "\x7d;"]

/-- The class of `File` instances. -/
def file : String :=
  Text.ofLines [
    "File.prototype.url = function () \x7b",
    "  return `$\x7bTessera.staticRoot\x7d/$\x7bencodeURI(this.src)\x7d`;",
    "\x7d;"]

def fileDeclarations : String :=
  Text.ofLines [
    "export declare class File \x7b",
    "  constructor(properties?: \x7b",
    "    src?: string,",
    "    type?: string,",
    "  \x7d);",
    "  readonly src: string;",
    "  readonly type: string;",
    "  url(): string;",
    "\x7d"]

/-- The class of `Color` instances. -/
def color : String :=
  Text.ofLines [
    "Color.prototype.toCss = function () \x7b",
    "  return `hsla($\x7bthis.h * 360\x7d, $\x7bthis.s * 100\x7d%, $\x7bthis.l * 100\x7d%, $\x7bthis.a\x7d)`;",
    "\x7d;"]

def colorDeclarations : String :=
  Text.ofLines [
    "export declare class Color \x7b",
    "  constructor(properties?: \x7b",
    "    h?: number,",
    "    s?: number,",
    "    l?: number,",
    "    a?: number,",
    "  \x7d);",
    "  readonly h: number;",
    "  readonly s: number;",
    "  readonly l: number;",
    "  readonly a: number;",
    "  toCss(): string;",
    "\x7d"]

/-- The class of `SVG` instances. -/
def svg : String :=
  Text.ofLines [
    "SVG.prototype.url = function () \x7b",
    "  return `$\x7bTessera.staticRoot\x7d/$\x7bencodeURI(this.src)\x7d`;",
    "\x7d;"]

def svgDeclarations : String :=
  Text.ofLines [
    "export declare class SVG \x7b",
    "  constructor(properties?: \x7b",
    "    src?: string,",
    "  \x7d);",
    "  readonly src: string;",
    "  url(): string;",
    "\x7d"]

/-- The class of `Font` instances. -/
def font : String :=
  Text.ofLines [
    "Font.prototype.fontFace = function () \x7b",
    "  return \x7b",
    "    fontFamily: this.name,",
    "    src: `url(\"$\x7bthis.file.url()\x7d\")`,",
    "  \x7d;",
    "\x7d;"]

def fontDeclarations : String :=
  Text.ofLines [
    "export declare class Font \x7b",
    "  constructor(properties?: \x7b",
    "    file?: File,",
    "    name?: string,",
    "  \x7d);",
    "  readonly file: File;",
    "  readonly name: string;",
    "  fontFace(): \x7bfontFamily: string, src: string\x7d;",
    "\x7d"]

/-- The class of `Typograph` instances. -/
def typograph : String :=
  Text.ofLines [
    "Typograph.prototype.style = function () \x7b",
    "  return \x7b",
    "    fontFamily: this.font.name,",
    "    fontSize: `$\x7bthis.fontSize\x7dpx`,",
    "    color: this.color.toCss(),",
    "  \x7d;",
    "\x7d;"]

def typographDeclarations : String :=
  Text.ofLines [
    "export declare class Typograph \x7b",
    "  constructor(properties?: \x7b",
    "    font?: Font,",
    "    fontSize?: number,",
    "    color?: Color,",
    "  \x7d);",
    "  readonly font: Font;",
    "  readonly fontSize: number;",
    "  readonly color: Color;",
    "  style(): \x7bfontFamily: string, fontSize: string, color: string\x7d;",
    "\x7d"]

/-- The template of a class. -/
def component : String :=
  Text.ofLines [
    "class \x7b\x7b component_name \x7d\x7d \x7b",
    "\x7b% if singleton %\x7d",
    "  constructor(\x7b",
    "\x7b% for name, property in properties.items() %\x7d",
    "    \x7b\x7b name \x7d\x7d = \x7b\x7b property.initializer \x7d\x7d,",
    "\x7b% endfor %\x7d",
    "  \x7d = \x7b\x7d) \x7b",
    "\x7b% else %\x7d",
    "  constructor(\x7b \x7b\x7b properties.keys()|join(\", \") \x7d\x7d \x7d) \x7b",
    "\x7b% endif %\x7d",
    "\x7b% for name in properties %\x7d",
    "    this.\x7b\x7b name \x7d\x7d = \x7b\x7b name \x7d\x7d;",
    "\x7b% endfor %\x7d",
    "  \x7d",
    "\x7d",
    "",
    "module.exports.\x7b\x7b component_name \x7d\x7d = \x7b\x7b component_name \x7d\x7d;"]

/-- The template of the declarations of a class. -/
def declaration : String :=
  Text.ofLines [
    "export declare class \x7b\x7b component_name \x7d\x7d \x7b",
    "  constructor(properties?: \x7b",
    "\x7b% for name, property in properties.items() %\x7d",
    "    \x7b\x7b name \x7d\x7d?: \x7b\x7b property.type \x7d\x7d,",
    "\x7b% endfor %\x7d",
    "  \x7d);",
    "\x7b% for name, property in properties.items() %\x7d",
    "  \x7b\x7b \"\" if property.updatable else \"readonly \" \x7d\x7d\x7b\x7b name \x7d\x7d: \x7b\x7b property.type \x7d\x7d;",
    "\x7b% endfor %\x7d",
    "\x7d"]

/-- The template of the style sheet. -/
def css : String :=
  Text.ofLines [
    "\x7b% for font in style_fonts %\x7d",
    "@font-face \x7b",
    "\x7b% for key, value in font %\x7d",
    "  \x7b\x7b key \x7d\x7d: \x7b\x7b value \x7d\x7d;",
    "\x7b% endfor %\x7d",
    "\x7d",
    "",
    "\x7b% endfor %\x7d",
    ":root \x7b",
    "\x7b% for variable in style_variables %\x7d",
    "  --\x7b\x7b variable.name \x7d\x7d: \x7b\x7b variable.value \x7d\x7d\x7b\x7b \"px\" if variable.is_number else \"\" \x7d\x7d;",
    "\x7b% endfor %\x7d",
    "\x7d",
    "\x7b% for group in style_rule_groups %\x7d",
    "",
    ".\x7b\x7b group.name \x7d\x7d \x7b",
    "\x7b% for key, value in group.rules %\x7d",
    "  \x7b\x7b key \x7d\x7d: \x7b\x7b value \x7d\x7d;",
    "\x7b% endfor %\x7d",
    "\x7d",
    "\x7b% endfor %\x7d"]

/-- The template of the style sheet with variables for preprocessing. -/
def scss : String :=
  Text.ofLines [
    "\x7b% for font in style_fonts %\x7d",
    "@font-face \x7b",
    "\x7b% for key, value in font %\x7d",
    "  \x7b\x7b key \x7d\x7d: \x7b\x7b value \x7d\x7d;",
    "\x7b% endfor %\x7d",
    "\x7d",
    "",
    "\x7b% endfor %\x7d",
    "\x7b% for variable in style_variables %\x7d",
    "$\x7b\x7b variable.name \x7d\x7d: \x7b\x7b variable.value \x7d\x7d;",
    "\x7b% endfor %\x7d",
    "\x7b% for group in style_rule_groups %\x7d",
    "",
    ".\x7b\x7b group.name \x7d\x7d \x7b",
    "\x7b% for key, value in group.rules %\x7d",
    "  \x7b\x7b key \x7d\x7d: \x7b\x7b value \x7d\x7d;",
    "\x7b% endfor %\x7d",
    "\x7d",
    "\x7b% endfor %\x7d"]

/-- The template of the read-me file of a package. -/
def readme : String :=
  Text.ofLines [
    "# \x7b\x7b module_name \x7d\x7d",
    "",
    "Generated by Tessera. Do not edit by hand; recompile the design system instead.",
    "",
    "Style sheets are in `static/styles.css` and `static/styles.scss`."]

/-- The template of the declarations of a package. -/
def indexDeclarations : String :=
  Text.ofLines [
    "\x7b% for declaration_import in declaration_imports %\x7d",
    "import \x7b\x7b declaration_import \x7d\x7d;",
    "\x7b% endfor %\x7d",
    "\x7b% for declaration in declarations %\x7d",
    "\x7b\x7b declaration \x7d\x7d",
    "\x7b% endfor %\x7d"]

/-- The template of the script of a package. -/
def index : String :=
  Text.ofLines [
    "\x7b% for source in sources %\x7d",
    "\x7b\x7b source \x7d\x7d",
    "\x7b% endfor %\x7d",
    "\x7b% if static_url %\x7d",
    "Tessera.staticRoot = \x7b\x7b static_url|tojson \x7d\x7d;",
    "\x7b% endif %\x7d"]

/-- The template of the manifest of a package. -/
def manifest : String :=
  Text.ofLines [
    "\x7b",
    "  \"name\": \"\x7b\x7b module_name \x7d\x7d\",",
    "  \"version\": \"\x7b\x7b sdk_version \x7d\x7d\",",
    "  \"main\": \"index.js\",",
    "  \"types\": \"index.d.ts\",",
    "  \"files\": [",
    "    \"index.js\",",
    "    \"index.d.ts\",",
    "    \"static\"",
    "  ],",
    "  \"dependencies\": \x7b",
    "\x7b% for dependency in dependencies %\x7d",
    "    \"\x7b\x7b dependency.name \x7d\x7d\": \"\x7b\x7b dependency.version_constraint \x7d\x7d\"\x7b\x7b \",\" if not loop.last else \"\" \x7d\x7d",
    "\x7b% endfor %\x7d",
    "  \x7d",
    "\x7d"]

/-- The files by their paths. -/
def files : List (String × String) := [
  ("core/Tessera.js", runtime),
  ("core/Tessera.d.ts", runtimeDeclarations),
  ("hot/component.js", hotComponent),
  ("bindings/File.js", file),
  ("bindings/File.d.ts", fileDeclarations),
  ("bindings/Color.js", color),
  ("bindings/Color.d.ts", colorDeclarations),
  ("bindings/SVG.js", svg),
  ("bindings/SVG.d.ts", svgDeclarations),
  ("bindings/Font.js", font),
  ("bindings/Font.d.ts", fontDeclarations),
  ("bindings/Typograph.js", typograph),
  ("bindings/Typograph.d.ts", typographDeclarations),
  ("js.component.j2", component),
  ("js.declaration.j2", declaration),
  ("styles.css.j2", css),
  ("styles.scss.j2", scss),
  ("sdk/README.md.j2", readme),
  ("sdk/index.d.ts.j2", indexDeclarations),
  ("sdk/index.js.j2", index),
  ("sdk/package.json.j2", manifest)]

end DesignGraph.Stock.Web
