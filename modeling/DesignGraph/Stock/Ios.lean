import DesignGraph.Text.Line

/-!
# Stock files of iOS packages

The texts that come with the library for iOS packages: the runtime, the classes of the prefab types
and the templates.
-/

namespace DesignGraph.Stock.Ios

/-- The runtime that every package begins with. -/
def runtime : String :=
  Text.ofLines [
    "public final class Tessera<T> \x7b",
    "    public private(set) var component: T",
    "    private var subscribers: [(T) -> Void] = []",
    "",
    "    public init(_ component: T) \x7b",
    "        self.component = component",
    "    \x7d",
    "",
    "    @discardableResult",
    "    public func attach(_ subscriber: @escaping (T) -> Void) -> Self \x7b",
    "        subscribers.append(subscriber)",
    "        subscriber(component)",
    "        return self",
    "    \x7d",
    "",
    "    public func update(_ component: T) \x7b",
    "        self.component = component",
    "        subscribers.forEach \x7b $0(component) \x7d",
    "    \x7d",
    "\x7d"]

/-- Reloads the components when the package is compiled again. -/
def hotComponent : String :=
  Text.ofLines [
    "// Companion source for hot clients: polls the hot server and hands updated payloads to a decoder.",
    "public final class HotComponent \x7b",
    "    private let url: URL",
    "    private var task: URLSessionDataTask?",
    "",
    "    public init(url: URL) \x7b",
    "        self.url = url",
    "    \x7d",
    "",
    "    public func poll(onUpdate: @escaping (Data) -> Void) \x7b",
    "        task = URLSession.shared.dataTask(with: url.appendingPathComponent(\"events\")) \x7b data, _, _ in",
    "            if let data = data \x7b",
    "                onUpdate(data)",
    "            \x7d",
    "        \x7d",
    "        task?.resume()",
    "    \x7d",
    "",
    "    public func cancel() \x7b",
    "        task?.cancel()",
    "    \x7d",
    "\x7d"]

/-- The class of `File` instances. -/
def file : String :=
  Text.ofLines [
    "extension File \x7b",
    "    public convenience init(withSrc src: String) \x7b",
    "        self.init(src: src, type: \"\")",
    "    \x7d",
    "",
    "    public var url: URL? \x7b",
    "        return Bundle.module.url(forResource: \"Static/\\(src)\", withExtension: nil)",
    "    \x7d",
    "\x7d"]

/-- The class of `Color` instances. -/
def color : String :=
  Text.ofLines [
    "extension Color \x7b",
    "    public var uiColor: UIColor \x7b",
    "        let brightness = l + s * min(l, 1 - l)",
    "        let saturation = brightness == 0 ? 0 : 2 * (1 - l / brightness)",
    "        return UIColor(hue: h, saturation: saturation, brightness: brightness, alpha: a)",
    "    \x7d",
    "\x7d"]

/-- The class of `SVG` instances. -/
def svg : String :=
  Text.ofLines [
    "extension SVG \x7b",
    "    public convenience init(withSrc src: String) \x7b",
    "        self.init(src: src)",
    "    \x7d",
    "",
    "    public var url: URL? \x7b",
    "        return Bundle.module.url(forResource: \"Static/\\(src)\", withExtension: \"html\")",
    "    \x7d",
    "",
    "    public func load(into webView: WKWebView) \x7b",
    "        guard let url = url else \x7b",
    "            return",
    "        \x7d",
    "        webView.loadFileURL(url, allowingReadAccessTo: url.deletingLastPathComponent())",
    "    \x7d",
    "\x7d"]

/-- The class of `Font` instances. -/
def font : String :=
  Text.ofLines [
    "extension Font \x7b",
    "    private static var registeredSources = Set<String>()",
    "",
    "    public func uiFont(ofSize size: CGFloat) -> UIFont \x7b",
    "        if !Font.registeredSources.contains(file.src), let url = file.url \x7b",
    "            CTFontManagerRegisterFontsForURL(url as CFURL, .process, nil)",
    "            Font.registeredSources.insert(file.src)",
    "        \x7d",
    "        return UIFont(name: name, size: size) ?? UIFont.systemFont(ofSize: size)",
    "    \x7d",
    "\x7d"]

/-- The class of `Typograph` instances. -/
def typograph : String :=
  Text.ofLines [
    "extension Typograph \x7b",
    "    public var uiFont: UIFont \x7b",
    "        return font.uiFont(ofSize: fontSize)",
    "    \x7d",
    "",
    "    public var attributes: [NSAttributedString.Key: Any] \x7b",
    "        return [.font: uiFont, .foregroundColor: color.uiColor]",
    "    \x7d",
    "\x7d"]

/-- The template of a class. -/
def component : String :=
  Text.ofLines [
    "public final class \x7b\x7b component_name \x7d\x7d: NSObject \x7b",
    "\x7b% for name, property in properties.items() %\x7d",
    "    public \x7b\x7b \"var\" if property.updatable else \"let\" \x7d\x7d \x7b\x7b name \x7d\x7d: \x7b\x7b property.type \x7d\x7d",
    "\x7b% endfor %\x7d",
    "",
    "    public init(",
    "\x7b% for name, property in properties.items() %\x7d",
    "        \x7b\x7b name \x7d\x7d: \x7b\x7b property.type \x7d\x7d\x7b\x7b (\" = \" ~ property.initializer) if singleton else \"\" \x7d\x7d\x7b\x7b \",\" if not loop.last else \"\" \x7d\x7d",
    "\x7b% endfor %\x7d",
    "    ) \x7b",
    "\x7b% for name in properties %\x7d",
    "        self.\x7b\x7b name \x7d\x7d = \x7b\x7b name \x7d\x7d",
    "\x7b% endfor %\x7d",
    "        super.init()",
    "    \x7d",
    "\x7d"]

/-- The template of the manifest of a package. -/
def manifest : String :=
  Text.ofLines [
    "// swift-tools-version:5.5",
    "import PackageDescription",
    "",
    "let package = Package(",
    "    name: \"\x7b\x7b module_name \x7d\x7d\",",
    "    platforms: [.iOS(\"\x7b\x7b deployment_target \x7d\x7d\")],",
    "    products: [",
    "        .library(name: \"\x7b\x7b module_name \x7d\x7d\", targets: [\"\x7b\x7b module_name \x7d\x7d\"]),",
    "    ],",
    "    dependencies: [",
    "\x7b% for dependency in dependencies %\x7d",
    "        .package(url: \"\x7b\x7b dependency.url \x7d\x7d\", from: \"\x7b\x7b dependency.version_constraint \x7d\x7d\"),",
    "\x7b% endfor %\x7d",
    "    ],",
    "    targets: [",
    "        .target(",
    "            name: \"\x7b\x7b module_name \x7d\x7d\",",
    "            dependencies: [\x7b% for dependency in dependencies %\x7d\"\x7b\x7b dependency.name \x7d\x7d\"\x7b\x7b \", \" if not loop.last else \"\" \x7d\x7d\x7b% endfor %\x7d],",
    "            resources: [.copy(\"Static\")]",
    "        ),",
    "    ]",
    ")"]

/-- The files by their paths. -/
def files : List (String × String) := [
  ("core/Tessera.swift", runtime),
  ("hot/HotComponent.swift", hotComponent),
  ("bindings/File.swift", file),
  ("bindings/Color.swift", color),
  ("bindings/SVG.swift", svg),
  ("bindings/Font.swift", font),
  ("bindings/Typograph.swift", typograph),
  ("swift.component.j2", component),
  ("sdk/Package.swift.j2", manifest)]

end DesignGraph.Stock.Ios
